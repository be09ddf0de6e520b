import Whirliscope.Userspace.ProgramView

/-
  The heap pages of a program.

  A successful `process_sbrk` adds the pages between the
  rounded breaks, cleared and each with a frame of its own,
  and keeps every page that was there.

  Key definitions include:
    * `Extends`, `HeldHeap`
    * `HeapRun`
    * `HeapSound`, `SbrkSound`

  Main theorem:
    * `heap_sound_iff`
-/

------------------------------------------------------------
-- Adding Heap Pages
------------------------------------------------------------

namespace Whirliscope

namespace Userspace

open ByteMemory FaultProgram Vmm Syscall

/- The number of pages below a break. -/
def pagesBelow
    (limit : Nat) : Nat :=
  (limit + 4095) / 4096

/- A heap address rounded up to a page. -/
theorem alignUp_page
    {value : Nat}
    (hValue : value ≤ userspaceHeapLimit) :
    alignUp 64 value vmmPageSize = pagesBelow value * 4096 := by
  have hWrap : wrap 64 (value + 4095) = value + 4095 := by
    apply wrap_of_lt
    unfold userspaceHeapLimit at hValue
    omega
  have hRound :
      alignUp 64 value vmmPageSize =
        value + 4095 - (value + 4095) % 4096 := by
    rw [← hWrap]
    exact @alignDown_two_pow 64 12 _ (by decide)
      (wrap_lt 64 _)
  unfold pagesBelow
  omega

/- The pages of one space, with cleared heap pages added. -/
structure Extends
    (space : UserSpace)
    (first last : Nat)
    (after : UserSpace) : Prop where
  kept :
    ∀ number page, space number = some page →
      after number = some page
  added :
    ∀ number, first ≤ number → number < last →
      ∃ physical,
        after number = some ⟨⟨physical, userDataFlags⟩, zeros⟩
  others :
    ∀ number, space number = none →
      number < first ∨ last ≤ number →
        after number = none

theorem Extends.refl
    (space : UserSpace)
    (first : Nat) :
    Extends space first first space where
  kept := fun _ _ hPage => hPage
  added := by
    intro number hFirst hLast
    omega
  others := fun _ hNone _ => hNone

/- The next page is added. -/
theorem Extends.put
    {space after : UserSpace}
    {first last : Nat}
    (hExtends : Extends space first last after)
    (hLe : first ≤ last)
    (hNone : after last = none)
    (physical : Nat) :
    Extends space first (last + 1)
      (after.put last
        ⟨⟨physical, userDataFlags⟩, zeros⟩) where
  kept := by
    intro number page hPage
    have hAfter := hExtends.kept number page hPage
    rw [after.put_of_ne]
    · exact hAfter
    · rintro rfl
      rw [hNone] at hAfter
      cases hAfter
  added := by
    intro number hFirst hLast
    by_cases hNew : number = last
    · subst hNew
      exact ⟨physical, after.put_self _ _⟩
    · rw [after.put_of_ne _ hNew]
      exact hExtends.added number hFirst (by omega)
  others := by
    intro number hSpace hOutside
    rw [after.put_of_ne _ (by omega)]
    exact hExtends.others number hSpace (by omega)

variable {δ : Type}

/- The machine holds a space with heap pages added. -/
def HoldsMore
    (root : Nat)
    (space : UserSpace)
    (first last : Nat)
    (machine : UserMachine δ) : Prop :=
  ∃ after used,
    Holds root after used machine ∧
      Extends space first last after

/- One pass of the page loop of `process_sbrk`. -/
theorem ensures_sbrkVisit_adds
    {root first number newPageEnd : Nat}
    {space : UserSpace}
    {machine : UserMachine δ}
    (hMore : HoldsMore root space first number machine)
    (hFirst : first ≤ number)
    (hRoom : number * 4096 < newPageEnd)
    (hEnd : newPageEnd ≤ userspaceHeapLimit) :
    Ensures (fun _ => True)
      (sbrkVisit root newPageEnd (number * 4096)) machine
      (Continues
        (fun vaddr after =>
          vaddr = (number + 1) * 4096 ∧
            HoldsMore root space first (number + 1) after)
        fun grown after =>
          grown = false ∧
            HoldsMore root space first number after) := by
  rcases hMore with ⟨before, used, hHolds, hExtends⟩
  unfold userspaceHeapLimit at hEnd
  have hNumber : pageNumber (number * 4096) = number := by
    unfold pageNumber
    omega
  have hNext :
      wrap 64 (number * 4096 + vmmPageSize) =
        (number + 1) * 4096 := by
    unfold wrap vmmPageSize
    omega
  have hHalf : number < 2 ^ 35 := by omega
  unfold sbrkVisit pmmAllocPage clearPage vmmMapPageInSpace
  rw [if_pos hRoom]
  simp only [ensures_bind_iff, ensures_get_iff,
    ensures_set_iff, ensures_pure_iff]
  rw [ensures_ite_iff]
  constructor
  · intro hNothing
    rw [ensures_pure_iff]
    exact ⟨rfl, before, used,
      hHolds.allocNothing hNothing, hExtends⟩
  intro hTaken
  simp only [ensures_bind_iff, ensures_get_iff,
    ensures_set_iff, ensures_pure_iff, ensures_modify_iff]
  have hNew :=
    hHolds.newPage hTaken (number * 4096)
      userDataFlags_userFlags (show 0 + 0 ≤ 4096 by decide)
      zeros
  dsimp only at hNew
  rw [storePhys_zero, write_zero, hNumber] at hNew
  rw [ensures_ite_iff]
  constructor
  · intro hRefused
    rw [ensures_pure_iff]
    exact ⟨rfl, before, _,
      hNew.1 (by simpa using hRefused), hExtends⟩
  · intro hMapped
    rw [ensures_pure_iff]
    rcases hNew.2 (by simpa using hMapped) with
      ⟨hAfter, hNone, -⟩
    exact ⟨hNext, _, _, hAfter,
      hExtends.put hFirst (hNone hHalf) _⟩

/- The page loop between two numbers of pages. -/
theorem ensures_sbrkLoop
    {root first last : Nat}
    {space : UserSpace}
    {used : List Nat}
    {machine : UserMachine δ}
    (hHolds : Holds root space used machine)
    (hOrder : first ≤ last)
    (hEnd : last * 4096 ≤ userspaceHeapLimit) :
    Ensures (fun _ => True)
      (loop (throw .fault) (sbrkVisit root (last * 4096))
        (2 ^ 53) (first * 4096))
      machine
      fun grown after =>
        ∃ number, HoldsMore root space first number after ∧
          (grown = true → number = last) := by
  apply ensures_loop fun _ vaddr state =>
    ∃ number, vaddr = number * 4096 ∧ first ≤ number ∧
      number ≤ last ∧
      HoldsMore root space first number state
  · exact fun _ _ _ => (ensures_throw_iff _ _ _ _).mpr trivial
  · rintro _ _ state ⟨number, rfl, hFirst, hLast, hMore⟩
    by_cases hRoom : number * 4096 < last * 4096
    · apply (ensures_sbrkVisit_adds hMore hFirst hRoom
        hEnd).mono
      intro outcome after hOutcome
      cases outcome with
      | inl vaddr =>
          exact ⟨number + 1, hOutcome.1, by omega, by omega,
            hOutcome.2⟩
      | inr grown =>
          exact ⟨number, hOutcome.2, fun hTrue =>
            absurd (hOutcome.1.symm.trans hTrue)
              Bool.false_ne_true⟩
    · unfold sbrkVisit
      rw [if_neg hRoom, ensures_pure_iff, continues_inr]
      exact ⟨number, hMore, fun _ => by omega⟩
  · exact ⟨first, rfl, Nat.le_refl _, hOrder, space, used,
      hHolds, Extends.refl space first⟩

/- The tables of the process in a slot. -/
def rootOf
    (slot : Slot)
    (machine : UserMachine δ) : Nat :=
  (machine.rest.processes slot).pml4Phys

def breakOf
    (slot : Slot)
    (machine : UserMachine δ) : Nat :=
  (machine.rest.processes slot).heapCurrent

/-
  The machine holds the space of the current process, with
  the heap pages below its break. Bytes that were not written
  are zero.
-/
structure HeapPages
    (slot : Slot)
    (written : List Nat)
    (space : UserSpace)
    (used : List Nat)
    (machine : UserMachine δ) : Prop where
  holds : Holds (rootOf slot machine) space used machine
  current : machine.rest.scheduler.current = some slot
  heapStart :
    (machine.rest.processes slot).heapStart =
      userspaceHeapBase
  heapEnd :
    (machine.rest.processes slot).heapEnd =
      userspaceHeapLimit
  low : userspaceHeapBase ≤ breakOf slot machine
  high : breakOf slot machine ≤ userspaceHeapLimit
  mapped :
    ∀ number,
      pagesBelow userspaceHeapBase ≤ number →
      number < pagesBelow (breakOf slot machine) →
        ∃ page, space number = some page ∧
          page.frame.flags = userDataFlags ∧
          ∀ i, i < 4096 → number * 4096 + i ∉ written →
            page.bytes i = 0

/- No page above the break is mapped in the heap range. -/
structure HeldHeap
    (slot : Slot)
    (written : List Nat)
    (space : UserSpace)
    (used : List Nat)
    (machine : UserMachine δ) : Prop extends
    HeapPages slot written space used machine where
  unmapped :
    ∀ number, pagesBelow (breakOf slot machine) ≤ number →
      number < pagesBelow userspaceHeapLimit →
        space number = none

/- Pages are added, and the break may move over them. -/
theorem HeapPages.extend
    {slot : Slot}
    {written : List Nat}
    {space after : UserSpace}
    {used used' : List Nat}
    {machine grown : UserMachine δ}
    {newBreak last : Nat}
    (hHeap : HeapPages slot written space used machine)
    (hExtends :
      Extends space (pagesBelow (breakOf slot machine)) last
        after)
    (hHolds : Holds (rootOf slot machine) after used' grown)
    (hCurrent : grown.rest.scheduler.current = some slot)
    (hProcess :
      grown.rest.processes slot =
        { machine.rest.processes slot with
          heapCurrent := newBreak })
    (hOrder : breakOf slot machine ≤ newBreak)
    (hLimit : newBreak ≤ userspaceHeapLimit)
    (hPages :
      breakOf slot machine < newBreak →
        pagesBelow newBreak ≤ last) :
    HeapPages slot written after used' grown := by
  have hBreak : breakOf slot grown = newBreak := by
    unfold breakOf
    rw [hProcess]
  have hRoot : rootOf slot grown = rootOf slot machine := by
    unfold rootOf
    rw [hProcess]
  refine
    { holds := by rw [hRoot]; exact hHolds
      current := hCurrent
      heapStart := by rw [hProcess]; exact hHeap.heapStart
      heapEnd := by rw [hProcess]; exact hHeap.heapEnd
      low := by
        rw [hBreak]
        exact Nat.le_trans hHeap.low hOrder
      high := by rw [hBreak]; exact hLimit
      mapped := ?_ }
  intro number hFirst hLast
  rw [hBreak] at hLast
  by_cases hOld : number < pagesBelow (breakOf slot machine)
  · rcases hHeap.mapped number hFirst hOld with
      ⟨page, hPage, hRest⟩
    exact ⟨page, hExtends.kept number page hPage, hRest⟩
  · have hMoved : breakOf slot machine < newBreak := by
      unfold pagesBelow at hLast hOld
      omega
    rcases hExtends.added number (Nat.le_of_not_lt hOld)
        (Nat.lt_of_lt_of_le hLast (hPages hMoved)) with
      ⟨physical, hPage⟩
    exact ⟨_, hPage, rfl, fun _ _ _ => rfl⟩

/- What a successful call does to the heap. -/
structure SbrkAdds
    (slot : Slot)
    (written : List Nat)
    (space : UserSpace)
    (increment oldBreak : Nat)
    (machine after : UserMachine δ) : Prop where
  oldBreak_eq : oldBreak = breakOf slot machine
  newBreak_eq :
    breakOf slot after = wrap 64 (oldBreak + increment)
  grows : oldBreak ≤ breakOf slot after
  held :
    ∃ space' used',
      HeapPages slot written space' used' after ∧
        Extends space (pagesBelow oldBreak)
          (pagesBelow (breakOf slot after)) space'

/- A call that fails may leave pages above the break. -/
def SbrkFails
    (slot : Slot)
    (written : List Nat)
    (space : UserSpace)
    (machine after : UserMachine δ) : Prop :=
  breakOf slot after = breakOf slot machine ∧
    ∃ space' used',
      HeapPages slot written space' used' after ∧
        ∀ number page, space number = some page →
          space' number = some page

/- `process_sbrk` adds the pages up to the new break. -/
theorem ensures_processSbrk_adds
    {slot : Slot}
    {written : List Nat}
    {space : UserSpace}
    {used : List Nat}
    {machine : UserMachine δ}
    (hHeap : HeapPages slot written space used machine)
    (increment : Nat) :
    Ensures (fun _ => True) (processSbrk increment) machine
      fun result after =>
        (∀ oldBreak, result = some oldBreak →
          SbrkAdds slot written space increment oldBreak machine
            after) ∧
        (result = none →
          SbrkFails slot written space machine after) := by
  have hHigh := hHeap.high
  unfold processSbrk
  rw [ensures_bind_iff, ensures_get_iff]
  dsimp only
  rw [hHeap.current]
  dsimp only
  have hRefused :
      (∀ oldBreak, none = some oldBreak →
        SbrkAdds slot written space increment oldBreak machine
          machine) ∧
      ((none : Option Nat) = none →
        SbrkFails slot written space machine machine) :=
    ⟨(fun _ hNever => nomatch hNever),
      fun _ => ⟨rfl, space, used, hHeap,
        fun _ _ hPage => hPage⟩⟩
  rw [ensures_ite_iff]
  constructor
  · rintro rfl
    rw [ensures_pure_iff]
    refine ⟨?_, fun hNever => nomatch hNever⟩
    rintro _ ⟨rfl⟩
    refine
      { oldBreak_eq := rfl
        newBreak_eq := ?_
        grows := Nat.le_refl _
        held := ⟨space, used, hHeap, Extends.refl space _⟩ }
    refine (wrap_of_lt ?_).symm
    unfold userspaceHeapLimit at hHigh
    change breakOf slot machine + 0 < 2 ^ 64
    omega
  intro _
  rw [ensures_ite_iff]
  refine ⟨fun _ => (ensures_pure_iff _ _ _ _).mpr hRefused, ?_⟩
  intro _
  rw [ensures_ite_iff]
  refine ⟨fun _ => (ensures_pure_iff _ _ _ _).mpr hRefused, ?_⟩
  intro hRange
  rw [not_or, hHeap.heapEnd] at hRange
  let oldBreak := breakOf slot machine
  let newBreak := wrap 64 (oldBreak + increment)
  have hOrder : oldBreak ≤ newBreak :=
    Nat.le_of_not_lt hRange.1
  have hLimit : newBreak ≤ userspaceHeapLimit :=
    Nat.le_of_not_lt hRange.2
  have hPages : pagesBelow oldBreak ≤ pagesBelow newBreak := by
    unfold pagesBelow
    omega
  have hEnd :
      pagesBelow newBreak * 4096 ≤ userspaceHeapLimit := by
    unfold pagesBelow
    unfold userspaceHeapLimit at hLimit ⊢
    omega
  have hOldPage :
      alignUp 64 oldBreak vmmPageSize =
        pagesBelow oldBreak * 4096 :=
    alignUp_page (Nat.le_trans hOrder hLimit)
  have hNewPage :
      alignUp 64 newBreak vmmPageSize =
        pagesBelow newBreak * 4096 :=
    alignUp_page hLimit
  change
    Ensures _
      (loop (throw .fault)
          (sbrkVisit (rootOf slot machine)
            (alignUp 64 newBreak vmmPageSize))
          (2 ^ 53) (alignUp 64 oldBreak vmmPageSize) >>= _)
      machine _
  rw [hOldPage, hNewPage, ensures_bind_iff]
  have hSteady :=
    atSlot_steady machine slot (machine.rest.processes slot)
  have hSame :=
    Preserves.loop (Preserves.of_throw _ (.inl rfl))
      (hSteady.preserves_sbrkVisit (rootOf slot machine)
        (pagesBelow newBreak * 4096)) (2 ^ 53)
      (pagesBelow oldBreak * 4096) machine
      (AtSlot.refl machine slot)
  apply ((ensures_sbrkLoop hHeap.holds hPages hEnd).and
    hSame).mono
  rintro grown middle
    ⟨⟨number, ⟨after, used', hHolds, hExtends⟩, hGrown⟩, hAt⟩
  have hCurrent :
      middle.rest.scheduler.current = some slot := by
    rw [hAt.scheduler]
    exact hHeap.current
  rw [ensures_ite_iff]
  constructor
  · intro _
    rw [ensures_pure_iff]
    refine ⟨(fun _ hNever => nomatch hNever), fun _ => ?_⟩
    have hSlot := hAt.at_slot
    refine ⟨congrArg Process.heapCurrent hSlot, after, used',
      ?_, hExtends.kept⟩
    exact hHeap.extend hExtends hHolds hCurrent hSlot
      (Nat.le_refl _) hHigh
      (fun hLess => absurd hLess (Nat.lt_irrefl _))
  intro hDone
  unfold modifyProcess
  simp only [ensures_bind_iff, ensures_modify_iff,
    ensures_pure_iff]
  refine ⟨?_, fun hNever => nomatch hNever⟩
  rintro _ ⟨rfl⟩
  have hLast : number = pagesBelow newBreak :=
    hGrown (by simpa using hDone)
  subst hLast
  let grownMachine :=
    withProcess middle slot
      { middle.rest.processes slot with
        heapCurrent := newBreak }
  have hProcess :
      grownMachine.rest.processes slot =
        { machine.rest.processes slot with
          heapCurrent := newBreak } := by
    rw [withProcess_self, hAt.at_slot]
  have hBreak : breakOf slot grownMachine = newBreak := by
    unfold breakOf
    rw [hProcess]
  have hGrownHolds :
      Holds (rootOf slot machine) after used' grownMachine :=
    hHolds.of_bytes _ rfl rfl fun _ _ _ _ _ => rfl
  have hHeap' :
      HeapPages slot written after used' grownMachine :=
    hHeap.extend hExtends hGrownHolds hCurrent hProcess hOrder
      hLimit (fun _ => Nat.le_refl _)
  change
    SbrkAdds slot written space increment oldBreak machine
      grownMachine
  exact
    { oldBreak_eq := rfl
      newBreak_eq := hBreak
      grows := hBreak ▸ hOrder
      held := ⟨after, used', hHeap', by
        rw [hBreak]
        exact hExtends⟩ }

end Userspace

end Whirliscope

------------------------------------------------------------
-- Runs of a Program
------------------------------------------------------------

namespace Whirliscope

namespace Userspace

open ByteMemory FaultProgram Vmm Syscall
open Elf (Elf64Image Elf64Phdr)

variable {δ : Type}

/- A store of the program at a physical address. -/
def pokeMemory
    (machine : UserMachine δ)
    (physical : Nat)
    (byte : UInt8) : UserMachine δ :=
  { machine with
    memory := Function.update machine.memory physical byte }

/-
  Successful calls of `process_sbrk` and stores at mapped
  addresses, with the addresses that were written.
-/
inductive HeapRun
    (slot : Slot)
    (first : UserMachine δ) :
    List Nat → UserMachine δ → Prop
| refl : HeapRun slot first [] first
| sbrk
    {written : List Nat}
    {middle after : UserMachine δ}
    {increment oldBreak : Nat}
    (hRun : HeapRun slot first written middle)
    (hReturns :
      Returns (processSbrk increment) middle (some oldBreak)
        after) :
    HeapRun slot first written after
| store
    {written : List Nat}
    {middle : UserMachine δ}
    {virtualAddress physical : Nat}
    {byte : UInt8}
    (hRun : HeapRun slot first written middle)
    (hHalf : UserHalf virtualAddress)
    (hAt :
      vmmVirtToPhys middle.tables (rootOf slot middle)
          virtualAddress = some physical) :
    HeapRun slot first (virtualAddress :: written)
      (pokeMemory middle physical byte)

/- An address of the range kept for heaps. -/
def InHeapRange
    (virtualAddress : Nat) : Prop :=
  userspaceHeapBase ≤ virtualAddress ∧
    virtualAddress < userspaceHeapLimit

/- The page of the address covers a part of the heap. -/
def Covered
    (slot : Slot)
    (machine : UserMachine δ)
    (virtualAddress : Nat) : Prop :=
  ∃ inside,
    (machine.rest.processes slot).heapStart ≤ inside ∧
      inside < (machine.rest.processes slot).heapCurrent ∧
      inside / 4096 = virtualAddress / 4096

/- What holds of the heap of a program at all times. -/
structure HeapSound
    (slot : Slot)
    (written : List Nat)
    (machine : UserMachine δ) : Prop where
  ordered :
    (machine.rest.processes slot).heapStart ≤
        (machine.rest.processes slot).heapCurrent ∧
      (machine.rest.processes slot).heapCurrent ≤
        (machine.rest.processes slot).heapEnd
  mapped :
    ∀ v, InHeapRange v →
      (vmmVirtToPhys machine.tables (rootOf slot machine) v ≠
          none ↔
        Covered slot machine v)
  permissions :
    ∀ v, InHeapRange v → Covered slot machine v →
      UserAccess machine.tables (rootOf slot machine) v ∧
        WriteAccess machine.tables (rootOf slot machine) v ∧
        ¬ ExecAccess machine.tables (rootOf slot machine) v
  frames :
    ∀ v v' physical physical', UserHalf v → UserHalf v' →
      vmmVirtToPhys machine.tables (rootOf slot machine) v =
          some physical →
      vmmVirtToPhys machine.tables (rootOf slot machine) v' =
          some physical' →
      physical / 4096 = physical' / 4096 →
        v / 4096 = v' / 4096
  zero :
    ∀ v, InHeapRange v → Covered slot machine v →
      v ∉ written →
        userByte machine (rootOf slot machine) v = some 0

/- What holds of a successful call. -/
structure SbrkSound
    (slot : Slot)
    (machine : UserMachine δ)
    (oldBreak : Nat)
    (after : UserMachine δ) : Prop where
  oldBreak_eq : oldBreak = breakOf slot machine
  kept :
    ∀ v byte, UserHalf v →
      userByte machine (rootOf slot machine) v = some byte →
        userByte after (rootOf slot after) v = some byte

section Held

variable {slot : Slot} {written : List Nat}
variable {space : UserSpace} {used : List Nat}
variable {machine : UserMachine δ}

theorem InHeapRange.half
    {v : Nat}
    (hRange : InHeapRange v) :
    UserHalf v := by
  unfold InHeapRange userspaceHeapLimit at hRange
  unfold UserHalf
  omega

/- The pages that cover the heap. -/
theorem HeldHeap.covered_iff
    (hHeld : HeldHeap slot written space used machine)
    {v : Nat}
    (hRange : InHeapRange v) :
    Covered slot machine v ↔
      v / 4096 < pagesBelow (breakOf slot machine) := by
  have hLow := hHeld.low
  unfold InHeapRange userspaceHeapBase at hRange
  unfold userspaceHeapBase at hLow
  unfold Covered
  rw [hHeld.heapStart]
  change
    (∃ inside,
      userspaceHeapBase ≤ inside ∧
        inside < breakOf slot machine ∧ _) ↔ _
  unfold userspaceHeapBase pagesBelow
  constructor
  · rintro ⟨inside, hFirst, hLast, hPage⟩
    omega
  · intro hPage
    exact ⟨v / 4096 * 4096, by omega, by omega, by omega⟩

/- The page of an address of the heap range. -/
theorem HeldHeap.page
    (hHeld : HeldHeap slot written space used machine)
    {v : Nat}
    (hRange : InHeapRange v)
    (hCovered : Covered slot machine v) :
    ∃ page, space (v / 4096) = some page ∧
      page.frame.flags = userDataFlags ∧
      (v ∉ written → page.bytes (v % 4096) = 0) := by
  have hPage := (hHeld.covered_iff hRange).mp hCovered
  have hFirst : pagesBelow userspaceHeapBase ≤ v / 4096 := by
    unfold InHeapRange userspaceHeapBase at hRange
    unfold pagesBelow userspaceHeapBase
    omega
  rcases hHeld.mapped _ hFirst hPage with
    ⟨page, hAt, hFlags, hZero⟩
  refine ⟨page, hAt, hFlags, fun hFresh => ?_⟩
  apply hZero _ (Nat.mod_lt v (by decide))
  rw [Nat.div_add_mod' v 4096]
  exact hFresh

theorem HeldHeap.no_page
    (hHeld : HeldHeap slot written space used machine)
    {v : Nat}
    (hRange : InHeapRange v)
    (hNot : ¬ Covered slot machine v) :
    space (v / 4096) = none := by
  rw [hHeld.covered_iff hRange] at hNot
  apply hHeld.unmapped _ (Nat.le_of_not_lt hNot)
  unfold InHeapRange userspaceHeapLimit at hRange
  unfold pagesBelow userspaceHeapLimit
  omega

/- A held heap is sound. -/
theorem HeldHeap.sound
    (hHeld : HeldHeap slot written space used machine) :
    HeapSound slot written machine := by
  have hHolds := hHeld.holds
  refine
    { ordered := ?_
      mapped := ?_
      permissions := ?_
      frames := fun v v' _ _ hHalf hHalf' hAt hAt' hSame =>
        hHolds.own_frame hHalf hHalf' hAt hAt' hSame
      zero := ?_ }
  · rw [hHeld.heapStart, hHeld.heapEnd]
    exact ⟨hHeld.low, hHeld.high⟩
  · intro v hRange
    by_cases hCovered : Covered slot machine v
    · rcases hHeld.page hRange hCovered with ⟨page, hPage, -⟩
      rw [hHolds.translate hRange.half hPage]
      exact iff_of_true (Option.some_ne_none _) hCovered
    · rw [hHolds.translate_none hRange.half
        (hHeld.no_page hRange hCovered)]
      exact iff_of_false (fun h => h rfl) hCovered
  · intro v hRange hCovered
    rcases hHeld.page hRange hCovered with
      ⟨page, hPage, hFlags, -⟩
    have hAccess :=
      hHolds.shows.access hRange.half (congrArg _ hPage)
        (hHolds.isFrame hPage) (hHolds.owns _ _ hPage).2
    rw [hFlags] at hAccess
    exact ⟨hAccess.2.1.mpr (by decide),
      hAccess.2.2.1.mpr (by decide),
      fun hExec =>
        absurd (hAccess.2.2.2.mp hExec) (by decide)⟩
  · intro v hRange hCovered hFresh
    rcases hHeld.page hRange hCovered with
      ⟨page, hPage, -, hZero⟩
    rw [hHolds.userByte_eq hRange.half, hPage]
    exact congrArg some (hZero hFresh)

theorem HeapPages.sbrk
    (hHeap : HeapPages slot written space used machine)
    {after : UserMachine δ}
    {increment oldBreak : Nat}
    (hReturns :
      Returns (processSbrk increment) machine (some oldBreak)
        after) :
    SbrkAdds slot written space increment oldBreak machine
      after :=
  ((ensures_processSbrk_adds hHeap increment).of_returns
    hReturns).1 oldBreak rfl

/- No other page is added to the heap range. -/
theorem HeldHeap.sbrk
    (hHeld : HeldHeap slot written space used machine)
    {after : UserMachine δ}
    {increment oldBreak : Nat}
    (hReturns :
      Returns (processSbrk increment) machine (some oldBreak)
        after) :
    ∃ space' used',
      HeldHeap slot written space' used' after := by
  have hAdds := hHeld.toHeapPages.sbrk hReturns
  have hPages :
      pagesBelow (breakOf slot machine) ≤
        pagesBelow (breakOf slot after) := by
    have hGrows := hAdds.grows
    rw [hAdds.oldBreak_eq] at hGrows
    unfold pagesBelow
    omega
  rcases hAdds.held with ⟨space', used', hHeap, hExtends⟩
  refine ⟨space', used', hHeap, ?_⟩
  intro number hFirst hLast
  exact hExtends.others number
    (hHeld.unmapped number (Nat.le_trans hPages hFirst) hLast)
    (.inr hFirst)

/- Bytes of pages that are kept. -/
theorem userByte_kept
    {root root' : Nat}
    {space' : UserSpace}
    {used' : List Nat}
    {after : UserMachine δ}
    (hHolds : Holds root space used machine)
    (hHolds' : Holds root' space' used' after)
    (hKept :
      ∀ number page, space number = some page →
        space' number = some page)
    {v : Nat}
    {byte : UInt8}
    (hHalf : UserHalf v)
    (hByte : userByte machine root v = some byte) :
    userByte after root' v = some byte := by
  rw [hHolds.userByte_eq hHalf] at hByte
  rcases Option.map_eq_some_iff.mp hByte with
    ⟨page, hPage, rfl⟩
  rw [hHolds'.userByte_eq hHalf, hKept _ page hPage]
  rfl

/- A call keeps every mapped byte. -/
theorem HeapPages.sbrkSound
    (hHeap : HeapPages slot written space used machine)
    {after : UserMachine δ}
    {increment oldBreak : Nat}
    (hReturns :
      Returns (processSbrk increment) machine (some oldBreak)
        after) :
    SbrkSound slot machine oldBreak after := by
  have hAdds := hHeap.sbrk hReturns
  refine ⟨hAdds.oldBreak_eq, ?_⟩
  rcases hAdds.held with ⟨space', used', hHeap', hExtends⟩
  exact fun v byte hHalf hByte =>
    userByte_kept hHeap.holds hHeap'.holds hExtends.kept hHalf
      hByte

/- A store changes one byte of one page. -/
theorem HeapPages.store
    (hHeap : HeapPages slot written space used machine)
    {virtualAddress : Nat}
    {page : UserPage}
    (hPage : space (virtualAddress / 4096) = some page)
    (byte : UInt8) :
    HeapPages slot (virtualAddress :: written)
      (space.put (virtualAddress / 4096)
        (page.poke (virtualAddress % 4096) byte))
      used
      (pokeMemory machine
        (page.frame.physical + virtualAddress % 4096)
        byte) := by
  refine
    { holds := hHeap.holds.poke hPage byte
      current := hHeap.current
      heapStart := hHeap.heapStart
      heapEnd := hHeap.heapEnd
      low := hHeap.low
      high := hHeap.high
      mapped := ?_ }
  intro number hFirst hLast
  rcases hHeap.mapped number hFirst hLast with
    ⟨old, hOld, hFlags, hZero⟩
  by_cases hNumber : number = virtualAddress / 4096
  · subst hNumber
    have hSame : old = page :=
      Option.some.inj (hOld.symm.trans hPage)
    subst hSame
    refine ⟨_, space.put_self _ _, hFlags, ?_⟩
    intro i hi hFresh
    rw [List.mem_cons, not_or] at hFresh
    change
      Function.update old.bytes (virtualAddress % 4096) byte
          i = 0
    rw [Function.update_of_ne (by omega)]
    exact hZero i hi hFresh.2
  · refine ⟨old, ?_, hFlags, ?_⟩
    · rw [space.put_of_ne _ hNumber]
      exact hOld
    · intro i hi hFresh
      exact hZero i hi
        (fun hMem => hFresh (List.mem_cons_of_mem _ hMem))

theorem HeldHeap.store
    (hHeld : HeldHeap slot written space used machine)
    {virtualAddress physical : Nat}
    (byte : UInt8)
    (hHalf : UserHalf virtualAddress)
    (hAt :
      vmmVirtToPhys machine.tables (rootOf slot machine)
          virtualAddress = some physical) :
    ∃ space' used',
      HeldHeap slot (virtualAddress :: written) space' used'
        (pokeMemory machine physical byte) := by
  rcases (hHeld.holds.translate_eq_some_iff hHalf).mp hAt with
    ⟨page, hPage, rfl⟩
  refine ⟨_, used, hHeld.toHeapPages.store hPage byte, ?_⟩
  intro number hFirst hLast
  have hNone := hHeld.unmapped number hFirst hLast
  rw [space.put_of_ne]
  · exact hNone
  · rintro rfl
    rw [hPage] at hNone
    cases hNone

end Held

/- Every state of a run holds a heap. -/
theorem HeapRun.held
    {slot : Slot}
    {first machine : UserMachine δ}
    {written : List Nat}
    (hFirst :
      ∃ space used, HeldHeap slot [] space used first)
    (hRun : HeapRun slot first written machine) :
    ∃ space used,
      HeldHeap slot written space used machine := by
  induction hRun with
  | refl => exact hFirst
  | sbrk _ hReturns ih =>
      rcases ih with ⟨space, used, hHeld⟩
      exact hHeld.sbrk hReturns
  | store _ hHalf hAt ih =>
      rcases ih with ⟨space, used, hHeld⟩
      exact hHeld.store _ hHalf hAt

end Userspace

end Whirliscope

------------------------------------------------------------
-- Freshly Loaded Programs
------------------------------------------------------------

namespace Whirliscope

namespace Userspace

open ByteMemory FaultProgram Vmm Syscall
open Elf (Elf64Image Elf64Phdr)

variable {δ : Type}

/- The loaded program has become the current process. -/
structure Launched
    (slot : Slot)
    (loaded first : UserMachine δ) : Prop where
  tables : first.tables = loaded.tables
  memory : first.memory = loaded.memory
  free : first.rest.free = loaded.rest.free
  root : rootOf slot first = rootOf slot loaded
  heapStart :
    (first.rest.processes slot).heapStart =
      (loaded.rest.processes slot).heapStart
  heapCurrent : breakOf slot first = breakOf slot loaded
  heapEnd :
    (first.rest.processes slot).heapEnd =
      (loaded.rest.processes slot).heapEnd
  current : first.rest.scheduler.current = some slot

/- No byte of the segment is in the heap range. -/
def OutsideHeap
    (phdr : Elf64Phdr) : Prop :=
  ∀ v, phdr.pVaddr ≤ v → v < phdr.pVaddr + phdr.pMemsz →
    ¬ InHeapRange v

/-
  The page that the loader maps for an empty segment whose
  address is not aligned does not lie in the heap range. The
  tables ignore the high bits of the address.
-/
def NoStrayPage
    (phdr : Elf64Phdr) : Prop :=
  phdr.pMemsz = 0 → phdr.pVaddr % 4096 ≠ 0 →
    ¬ InHeapRange (phdr.pVaddr % 2 ^ 48)

instance
    (v : Nat) :
    Decidable (InHeapRange v) :=
  inferInstanceAs (Decidable (_ ∧ _))

/- The page of an empty segment. -/
theorem pageBelow_of_empty
    {phdr : Elf64Phdr}
    (hWords : phdr.Words)
    (hEmpty : phdr.pMemsz = 0)
    {image : Bytes}
    {number flags : Nat}
    {bytes : Bytes}
    (hPage :
      Elf.PageBelow image phdr (Elf.endPage phdr) number flags
        bytes) :
    phdr.pVaddr % 4096 ≠ 0 ∧
      number = phdr.pVaddr % 2 ^ 48 / 4096 := by
  have hFirst := Elf.firstPage_eq hWords
  have hEnd := Elf.endPage_of_empty hWords hEmpty
  rcases hPage with
    ⟨page, hAligned, hAbove, hBelow, hNumber, -⟩
  rw [hNumber]
  rw [hEnd] at hBelow
  unfold vmmPageSize at hAligned
  unfold pageNumber
  split_ifs at hBelow <;> omega

/- Pages of checked segments are not heap pages. -/
theorem segmentPage_not_heap
    {imageSize : Nat}
    {image : Bytes}
    {phdr : Elf64Phdr}
    (hWords : phdr.Words)
    (hChecked : Elf.PhdrChecked imageSize phdr)
    (hOutside : OutsideHeap phdr)
    (hNoStray : NoStrayPage phdr)
    {number flags : Nat}
    {bytes : Bytes}
    (hPage : Elf.SegmentPage image phdr number flags bytes) :
    number < pagesBelow userspaceHeapBase ∨
      pagesBelow userspaceHeapLimit ≤ number := by
  rcases hPage with ⟨hLoad, hBelow⟩
  unfold pagesBelow userspaceHeapBase userspaceHeapLimit
  by_cases hEmpty : phdr.pMemsz = 0
  · rcases pageBelow_of_empty hWords hEmpty hBelow with
      ⟨hUnaligned, hNumber⟩
    have hNot := hNoStray hEmpty hUnaligned
    unfold InHeapRange userspaceHeapBase userspaceHeapLimit
      at hNot
    omega
  · have hSegment :=
      hChecked.userSegment hWords hLoad hEmpty
    have hInside := hSegment.inside
    have hEnd := hSegment.endPage_eq
    have hFirst := Elf.firstPage_eq hWords
    -- The segment ends before the range or starts behind it.
    have hApart :
        phdr.pVaddr + phdr.pMemsz ≤ 0x10000000 ∨
          0x40000000 ≤ phdr.pVaddr := by
      have hStart := hOutside phdr.pVaddr
      have hBase := hOutside 0x10000000
      unfold InHeapRange userspaceHeapBase userspaceHeapLimit
        at hStart hBase
      omega
    rcases hBelow with
      ⟨page, hAligned, hAbove, hLast, hNumber, -⟩
    unfold vmmPageSize at hAligned
    unfold pageNumber at hNumber
    omega

section Fresh

variable {boot loaded first : UserMachine δ}
variable {slot : Slot}
variable {image : Bytes} {imageSize : Nat} {elf : Elf64Image}

/- A launched program is still held. -/
theorem Launched.holds
    (hProgram : LoadedProgram image elf slot loaded)
    (hFirst : Launched slot loaded first) :
    ∃ space used,
      Holds (rootOf slot first) space used first ∧
        space.Has (ProgramPage image elf) := by
  rcases hProgram.holds with ⟨space, used, hHolds, hHas⟩
  refine ⟨space, used, ?_, hHas⟩
  rw [hFirst.root]
  refine hHolds.of_bytes first hFirst.tables hFirst.free ?_
  intro _ _ _ _ _
  rw [hFirst.memory]

/- A new program has no heap pages. -/
theorem Launched.heldHeap
    (hAccepted : Elf.Accepted image imageSize elf)
    (hProgram : LoadedProgram image elf slot loaded)
    (hFirst : Launched slot loaded first)
    (hOutside :
      ∀ phdr, IsSegment image elf phdr → OutsideHeap phdr)
    (hNoStray :
      ∀ phdr, IsSegment image elf phdr → NoStrayPage phdr) :
    ∃ space used, HeldHeap slot [] space used first := by
  rcases hFirst.holds hProgram with
    ⟨space, used, hHolds, hHas⟩
  have hBreak : breakOf slot first = userspaceHeapBase :=
    hFirst.heapCurrent.trans hProgram.heapCurrent
  refine
    ⟨space, used,
      { holds := hHolds
        current := hFirst.current
        heapStart := hFirst.heapStart.trans hProgram.heapStart
        heapEnd := hFirst.heapEnd.trans hProgram.heapEnd
        low := Nat.le_of_eq hBreak.symm
        high := by rw [hBreak]; decide
        mapped := ?_
        unmapped := ?_ }⟩
  · intro number hLow hHigh
    rw [hBreak] at hHigh
    omega
  · intro number hLow hHigh
    rw [hBreak] at hLow
    cases hPage : space number with
    | none => rfl
    | some page =>
        have hHalf : number < 2 ^ 35 := by
          unfold pagesBelow userspaceHeapLimit at hHigh
          omega
        rcases (hHas number _ _ hHalf).mp
            ⟨page.frame.physical, hPage⟩ with
          ⟨i, hi, hSegmentPage⟩ | ⟨hStack, -⟩
        · have hSegment :
              IsSegment image elf (elf.phdr image i) :=
            ⟨i, hi, rfl, hSegmentPage.1⟩
          have hApart :=
            segmentPage_not_heap (Elf.elf64Phdr_words image _)
              (hAccepted.checked i hi)
              (hOutside _ hSegment) (hNoStray _ hSegment)
              hSegmentPage
          omega
        · unfold pageNumber userspaceStackTop vmmPageSize
            at hStack
          unfold pagesBelow userspaceHeapLimit at hHigh
          omega

/- A stray page is mapped before the heap has a page. -/
theorem Launched.not_sound
    (hProgram : LoadedProgram image elf slot loaded)
    (hFirst : Launched slot loaded first)
    {phdr : Elf64Phdr}
    (hSegment : IsSegment image elf phdr)
    (hStray : ¬ NoStrayPage phdr) :
    ¬ HeapSound slot [] first := by
  intro hSound
  rcases hFirst.holds hProgram with
    ⟨space, used, hHolds, hHas⟩
  unfold NoStrayPage at hStray
  simp only [Classical.not_imp, not_not] at hStray
  rcases hStray with ⟨hEmpty, hUnaligned, hRange⟩
  rcases hSegment with ⟨i, hi, hAt, hLoad⟩
  have hWords : phdr.Words :=
    hAt ▸ Elf.elf64Phdr_words image _
  have hWord := hWords.pVaddr
  have hBounds := hRange
  unfold InHeapRange userspaceHeapBase userspaceHeapLimit
    at hBounds
  have hPlanned :
      ProgramPage image elf (phdr.pVaddr % 2 ^ 48 / 4096)
        (Elf.segmentMapFlags phdr)
        (Elf.segmentBytes image phdr
          (phdr.pVaddr - phdr.pVaddr % 4096)) := by
    refine .inl ⟨i, hi, ?_⟩
    rw [hAt]
    refine ⟨hLoad, phdr.pVaddr - phdr.pVaddr % 4096, ?_, ?_,
      ?_, ?_, rfl, rfl⟩
    · exact Nat.dvd_sub_mod phdr.pVaddr
    · exact Nat.le_of_eq (Elf.firstPage_eq hWords)
    · rw [Elf.endPage_of_empty hWords hEmpty,
        if_neg hUnaligned, if_neg (by omega)]
      omega
    · unfold pageNumber
      omega
  have hView :=
    (hHolds.planned hHas hRange.half hPlanned).1
  have hMapped :
      vmmVirtToPhys first.tables (rootOf slot first)
          (phdr.pVaddr % 2 ^ 48) ≠ none := by
    intro hNone
    unfold userByte at hView
    rw [hNone] at hView
    cases hView
  rcases (hSound.mapped _ hRange).mp hMapped with
    ⟨inside, hLow, hHigh, -⟩
  rw [hFirst.heapStart, hProgram.heapStart] at hLow
  change inside < breakOf slot first at hHigh
  rw [hFirst.heapCurrent] at hHigh
  change
    inside < (loaded.rest.processes slot).heapCurrent at hHigh
  rw [hProgram.heapCurrent] at hHigh
  omega

end Fresh

/-
  The heap of a program whose segments lie outside the heap
  range is sound at all times exactly when no stray page was
  loaded into the range.
-/
theorem heap_sound_iff
    {boot loaded first : UserMachine δ}
    {slot : Slot}
    {pid : Nat}
    {name cwd : List UInt8}
    {image : Bytes}
    {imageSize : Nat}
    {elf : Elf64Image}
    (hRooted : Rooted boot)
    (hValid :
      Elf.elf64ValidateUserImage (some image) imageSize =
        some elf)
    (hLoads :
      Returns
        (processLoadUserImageBytes slot pid name image
          imageSize cwd)
        boot true loaded)
    (hFirst : Launched slot loaded first)
    (hOutside :
      ∀ phdr, IsSegment image elf phdr → OutsideHeap phdr) :
    (∀ written machine, HeapRun slot first written machine →
        HeapSound slot written machine ∧
          ∀ increment oldBreak after,
            Returns (processSbrk increment) machine
                (some oldBreak) after →
              SbrkSound slot machine oldBreak after) ↔
      ∀ phdr, IsSegment image elf phdr → NoStrayPage phdr := by
  rcases (ensures_load_holds hRooted slot pid name image
      imageSize cwd).of_returns hLoads rfl with
    ⟨elf', hValid', hProgram⟩
  have hSame : elf' = elf :=
    Option.some.inj (hValid'.symm.trans hValid)
  subst hSame
  constructor
  · intro hSound phdr hSegment
    by_contra hStray
    exact hFirst.not_sound hProgram hSegment hStray
      (hSound [] first .refl).1
  · intro hNoStray written machine hRun
    rcases hRun.held
        (hFirst.heldHeap (Elf.accepted_of_validate hValid)
          hProgram hOutside hNoStray) with
      ⟨space, used, hHeld⟩
    exact ⟨hHeld.sound, fun _ _ _ hReturns =>
      hHeld.toHeapPages.sbrkSound hReturns⟩

/- The machine with a process as the current one. -/
def launch
    (slot : Slot)
    (loaded : UserMachine δ) : UserMachine δ :=
  withScheduler loaded
    { loaded.rest.scheduler with current := some slot }

theorem launch_launched
    (slot : Slot)
    (loaded : UserMachine δ) :
    Launched slot loaded (launch slot loaded) :=
  ⟨rfl, rfl, rfl, rfl, rfl, rfl, rfl, rfl⟩

/- The heap of the sample program is sound. -/
theorem sampleProgram_heap_sound :
    Launched 1 sampleProgram (launch 1 sampleProgram) ∧
      ∀ written machine,
        HeapRun 1 (launch 1 sampleProgram) written machine →
          HeapSound 1 written machine ∧
            ∀ increment oldBreak after,
              Returns (processSbrk increment) machine
                  (some oldBreak) after →
                SbrkSound 1 machine oldBreak after := by
  have hOnly :
      ∀ phdr,
        IsSegment (Elf.sampleImage 1) (Elf.sampleElf 1) phdr →
          phdr.pVaddr = 0x400000 ∧ phdr.pMemsz = 16 := by
    rintro phdr ⟨i, hi, rfl, -⟩
    have hFirst : i = 0 := Nat.lt_one_iff.mp hi
    subst hFirst
    decide
  have hOutside :
      ∀ phdr,
        IsSegment (Elf.sampleImage 1) (Elf.sampleElf 1) phdr →
          OutsideHeap phdr := by
    intro phdr hSegment v hLow hHigh hRange
    rcases hOnly phdr hSegment with ⟨hVaddr, hMemsz⟩
    unfold InHeapRange userspaceHeapBase at hRange
    omega
  refine ⟨launch_launched 1 sampleProgram, ?_⟩
  apply (heap_sound_iff emptyMachine_rooted (by decide)
    sampleProgram_loads (launch_launched 1 sampleProgram)
    hOutside).mpr
  intro phdr hSegment hEmpty
  rw [(hOnly phdr hSegment).2] at hEmpty
  cases hEmpty

/-
  The sample image with an empty segment at an address above
  2^48 that the tables take for 0x10000005.
-/
def strayImage : Bytes :=
  fun offset =>
    if 136 ≤ offset ∧ offset < 144 then
      bytesLE 0x1000010000005 (offset - 136)
    else
      Elf.sampleImage 2 offset

def strayProgram : UserMachine Unit :=
  finalOr emptyMachine
    ((processLoadUserImageBytes 1 1 [] strayImage 176
      []).run emptyMachine)

theorem strayProgram_loads :
    Returns
      (processLoadUserImageBytes 1 1 [] strayImage 176 [])
      emptyMachine true strayProgram :=
  returns_finalOr emptyMachine (by decide)

/- Its page lies in the heap of the new program. -/
theorem stray_page_in_heap :
    ¬ ∀ (boot loaded first : UserMachine Unit) (slot : Slot)
        (pid : Nat) (name cwd : List UInt8) (image : Bytes)
        (imageSize : Nat) (elf : Elf64Image),
      Rooted boot →
      Elf.elf64ValidateUserImage (some image) imageSize =
          some elf →
      Returns
          (processLoadUserImageBytes slot pid name image
            imageSize cwd)
          boot true loaded →
      Launched slot loaded first →
      (∀ phdr, IsSegment image elf phdr →
        OutsideHeap phdr) →
      ∀ written machine, HeapRun slot first written machine →
        HeapSound slot written machine := by
  intro hAll
  have hValid :
      Elf.elf64ValidateUserImage (some strayImage) 176 =
        some (Elf.sampleElf 2) := by
    decide
  have hOutside :
      ∀ phdr,
        IsSegment strayImage (Elf.sampleElf 2) phdr →
          OutsideHeap phdr := by
    rintro phdr ⟨i, hi, rfl, -⟩ v hLow hHigh hRange
    unfold InHeapRange userspaceHeapBase userspaceHeapLimit
      at hRange
    have hIndex : i = 0 ∨ i = 1 := by
      change i < 2 at hi
      omega
    rcases hIndex with rfl | rfl
    · have hVaddr :
          ((Elf.sampleElf 2).phdr strayImage 0).pVaddr =
            0x400000 := by
        decide
      have hMemsz :
          ((Elf.sampleElf 2).phdr strayImage 0).pMemsz =
            16 := by
        decide
      omega
    · have hVaddr :
          ((Elf.sampleElf 2).phdr strayImage 1).pVaddr =
            0x1000010000005 := by
        decide
      omega
  have hSound :=
    hAll emptyMachine strayProgram (launch 1 strayProgram) 1 1
      [] [] strayImage 176 (Elf.sampleElf 2)
      emptyMachine_rooted hValid strayProgram_loads
      (launch_launched 1 strayProgram) hOutside [] _ .refl
  rcases (ensures_load_holds emptyMachine_rooted 1 1 []
      strayImage 176 []).of_returns strayProgram_loads rfl with
    ⟨elf, hElf, hProgram⟩
  have hSame : elf = Elf.sampleElf 2 :=
    Option.some.inj (hElf.symm.trans hValid)
  subst hSame
  have hSegment :
      IsSegment strayImage (Elf.sampleElf 2)
        ((Elf.sampleElf 2).phdr strayImage 1) :=
    ⟨1, by decide, rfl, by decide⟩
  have hStray :
      ¬ NoStrayPage
        ((Elf.sampleElf 2).phdr strayImage 1) := by
    intro hNone
    have hNot := hNone (by decide) (by decide)
    revert hNot
    decide
  exact (launch_launched 1 strayProgram).not_sound hProgram
    hSegment hStray hSound

end Userspace

end Whirliscope
