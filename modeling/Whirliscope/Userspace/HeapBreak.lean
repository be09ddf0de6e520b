import Whirliscope.Userspace.Blocking

/-
  The break of a process when memory runs out.

  `process_sbrk` takes frames one by one and gives none back,
  so a call that fails restores what it found only when it
  took no frame.

  Key definitions include:
    * `SbrkRun`
    * `Restored`
    * `Refused`

  Main theorem:
    * `sbrk_restored_iff`
-/

------------------------------------------------------------
-- Frames Are Only Taken
------------------------------------------------------------

namespace Whirliscope

namespace Vmm

theorem pmmAllocPage_free
    (s : Paging) :
    (pmmAllocPage s).2.free <:+ s.free := by
  unfold pmmAllocPage
  cases hFree : s.free with
  | nil =>
      dsimp only
      rw [hFree]
  | cons page rest => exact List.suffix_cons page rest

theorem ensureNextTable_free
    (table index shift flags : Nat)
    (s : Paging) :
    (ensureNextTable table index shift flags s).2.free <:+
      s.free := by
  have hAlloc := pmmAllocPage_free s
  unfold ensureNextTable
  dsimp only
  split_ifs
  · exact List.suffix_refl _
  · exact List.suffix_refl _
  · exact hAlloc
  · exact hAlloc

theorem walkLevelsCreate_free
    (virtualAddress flags targetShift : Nat)
    (shifts : List Nat)
    (table : Nat)
    (s : Paging) :
    (walkLevelsCreate virtualAddress flags targetShift shifts
      table s).2.free <:+ s.free := by
  induction shifts generalizing table s with
  | nil => exact List.suffix_refl _
  | cons shift shifts ih =>
      have hNext :=
        ensureNextTable_free table
          (tableIndex virtualAddress shift) shift flags s
      rw [walkLevelsCreate]
      split_ifs
      · exact List.suffix_refl _
      · split
        · rename_i hTable
          rw [hTable] at hNext
          exact hNext
        · rename_i next after hTable
          rw [hTable] at hNext
          exact (ih next after).trans hNext
      · exact List.suffix_refl _
      · exact ih _ _

/- Mapping a page gives no frame back. -/
theorem vmmMapPageInSpace_free
    (pml4Phys virtualAddress physicalAddress flags : Nat)
    (s : Paging) :
    (vmmMapPageInSpace pml4Phys virtualAddress physicalAddress
      flags s).2.free <:+ s.free := by
  have hWalk :=
    walkLevelsCreate_free virtualAddress flags 12
      [39, 30, 21, 12] pml4Phys s
  unfold vmmMapPageInSpace mapAtLevelInRoot walkToLevelCreate
  split_ifs
  · exact List.suffix_refl _
  · exact List.suffix_refl _
  · split
    · rename_i after hWalked
      rw [hWalked] at hWalk
      exact hWalk
    · rename_i mapping after hWalked
      rw [hWalked] at hWalk
      split_ifs
      · exact hWalk
      · exact hWalk

end Vmm

end Whirliscope

------------------------------------------------------------
-- Growing the Heap of a Process
------------------------------------------------------------

namespace Whirliscope

namespace Userspace

open ByteMemory FaultProgram Syscall

variable {δ : Type}

/- The free frames are among the last of some frames. -/
def FreeAmong
    (frames : List Nat)
    (machine : UserMachine δ) : Prop :=
  machine.rest.free <:+ frames

/- The rest of a pass, once it has a frame. -/
theorem preserves_mapTaken
    (frames : List Nat)
    (pml4Phys vaddr page : Nat) :
    Preserves (σ := UserMachine δ) Foreign (FreeAmong frames)
      (do
        if page = 0 then return .inr false
        clearPage page
        let mapped ←
          vmmMapPageInSpace pml4Phys vaddr page userDataFlags
        if !mapped then return .inr false
        return (.inl (wrap 64 (vaddr + vmmPageSize)) :
          Nat ⊕ Bool)) := by
  have hClear :
      Preserves (σ := UserMachine δ) Foreign
        (FreeAmong frames) (clearPage page) :=
    Preserves.of_modify fun _ hMachine => hMachine
  have hMap :
      Preserves (σ := UserMachine δ) Foreign
        (FreeAmong frames)
        (vmmMapPageInSpace pml4Phys vaddr page
          userDataFlags) := by
    intro machine hMachine
    simp only [vmmMapPageInSpace, ensures_bind_iff,
      ensures_get_iff, ensures_set_iff, ensures_pure_iff]
    exact (Vmm.vmmMapPageInSpace_free _ _ _ _ _).trans hMachine
  refine Preserves.ite (Preserves.of_pure _ _) ?_
  refine hClear.bind fun _ => ?_
  refine hMap.bind fun mapped => ?_
  exact Preserves.ite (Preserves.of_pure _ _)
    (Preserves.of_pure _ _)

theorem preserves_sbrkVisit
    (frames : List Nat)
    (pml4Phys newPageEnd vaddr : Nat) :
    Preserves (σ := UserMachine δ) Foreign (FreeAmong frames)
      (sbrkVisit pml4Phys newPageEnd vaddr) := by
  have hAlloc :
      Preserves (σ := UserMachine δ) Foreign
        (FreeAmong frames) pmmAllocPage := by
    intro machine hMachine
    simp only [pmmAllocPage, ensures_bind_iff,
      ensures_get_iff, ensures_set_iff, ensures_pure_iff]
    exact (Vmm.pmmAllocPage_free _).trans hMachine
  unfold sbrkVisit
  refine Preserves.ite ?_ (Preserves.of_pure _ _)
  exact hAlloc.bind fun page =>
    preserves_mapTaken frames pml4Phys vaddr page

/- The checks that `process_sbrk` makes before it grows. -/
def Refused
    (increment : Nat)
    (machine : UserMachine δ) : Prop :=
  match machine.rest.scheduler.current with
  | none => True
  | some slot =>
      let process := machine.rest.processes slot
      signed increment < 0 ∨
        wrap 64 (process.heapCurrent + increment) <
          process.heapCurrent ∨
        wrap 64 (process.heapCurrent + increment) >
          process.heapEnd

/- A pass that needs a page takes the first free frame. -/
theorem ensures_sbrkVisit_takes
    {machine : UserMachine δ}
    {page : Nat}
    {rest : List Nat}
    (hFree : machine.rest.free = page :: rest)
    (pml4Phys : Nat)
    {newPageEnd vaddr : Nat}
    (hRoom : vaddr < newPageEnd) :
    Ensures Foreign (sbrkVisit pml4Phys newPageEnd vaddr)
      machine fun _ after => FreeAmong rest after := by
  have hTaken :
      FreeAmong rest
        (pageManager.pmmAllocPage machine).2 := by
    change (Vmm.pmmAllocPage _).2.free <:+ rest
    simp [Vmm.pmmAllocPage, spacesOf, hFree]
  unfold sbrkVisit
  rw [if_pos hRoom, ensures_bind_iff]
  simp only [pmmAllocPage, ensures_bind_iff, ensures_get_iff,
    ensures_set_iff, ensures_pure_iff]
  exact preserves_mapTaken rest pml4Phys vaddr _ _ hTaken

/-
  A call that its checks let through and that finds a free
  frame takes it, or has no page to add.
-/
theorem ensures_processSbrk_takes
    {machine : UserMachine δ}
    {increment page : Nat}
    {rest : List Nat}
    (hChecked : ¬ Refused increment machine)
    (hFree : machine.rest.free = page :: rest) :
    Ensures Foreign (processSbrk increment) machine
      fun result after =>
        result = none → FreeAmong rest after := by
  unfold processSbrk
  rw [ensures_bind_iff, ensures_get_iff]
  dsimp only
  unfold Refused at hChecked
  split
  · rename_i hCurrent
    rw [hCurrent] at hChecked
    exact absurd trivial hChecked
  rename_i slot hCurrent
  rw [hCurrent] at hChecked
  simp only [not_or] at hChecked
  rw [ensures_ite_iff]
  constructor
  · intro _
    rw [ensures_pure_iff]
    exact fun hNever => by cases hNever
  intro _
  rw [if_neg hChecked.1, if_neg (by
    rw [not_or]
    exact hChecked.2), ensures_bind_iff]
  -- The first pass takes the frame, or there is none.
  have hLoop :
      ∀ newPageEnd oldPageEnd,
        Ensures Foreign
          (loop (throw .fault)
            (sbrkVisit (machine.rest.processes slot).pml4Phys
              newPageEnd) (2 ^ 53) oldPageEnd)
          machine
          fun grown after =>
            grown = false → FreeAmong rest after := by
    intro newPageEnd oldPageEnd
    apply ensures_loop fun _ vaddr middle =>
      (vaddr = oldPageEnd ∧ middle = machine) ∨
        FreeAmong rest middle
    · exact fun _ _ _ =>
        (ensures_throw_iff _ _ _ _).mpr (.inl rfl)
    · intro _ vaddr middle hMiddle
      by_cases hRoom : vaddr < newPageEnd
      · have hVisit :
            Ensures Foreign
              (sbrkVisit
                (machine.rest.processes slot).pml4Phys
                newPageEnd vaddr) middle
              fun _ after => FreeAmong rest after := by
          rcases hMiddle with ⟨_, rfl⟩ | hTaken
          · exact ensures_sbrkVisit_takes hFree _ hRoom
          · exact preserves_sbrkVisit rest _ _ _ middle hTaken
        apply hVisit.mono
        intro step after hAfter
        cases step with
        | inl next => exact .inr hAfter
        | inr grown => exact fun _ => hAfter
      · unfold sbrkVisit
        rw [if_neg hRoom, ensures_pure_iff, continues_inr]
        exact fun hNever => by cases hNever
    · exact .inl ⟨rfl, rfl⟩
  apply (hLoop _ _).mono
  intro grown after hAfter
  cases grown with
  | false =>
      simp only [Bool.not_false, if_true, ensures_pure_iff]
      exact fun _ => hAfter rfl
  | true =>
      simp only [Bool.not_true, Bool.false_eq_true, if_false,
        ensures_bind_iff, modifyProcess, ensures_modify_iff,
        ensures_pure_iff]
      exact fun hNever => by cases hNever

/- A call that finds no free frame takes none. -/
theorem ensures_processSbrk_untouched
    {machine : UserMachine δ}
    {increment : Nat}
    (hNone :
      Refused increment machine ∨ machine.rest.free = []) :
    Ensures Foreign (processSbrk increment) machine
      fun result after => result = none → after = machine := by
  unfold processSbrk
  rw [ensures_bind_iff, ensures_get_iff]
  dsimp only
  split
  · rw [ensures_pure_iff]
    exact fun _ => rfl
  rename_i slot hCurrent
  unfold Refused at hNone
  rw [hCurrent] at hNone
  rw [ensures_ite_iff]
  constructor
  · intro _
    rw [ensures_pure_iff]
    exact fun _ => rfl
  intro _
  rw [ensures_ite_iff]
  constructor
  · intro _
    rw [ensures_pure_iff]
    exact fun _ => rfl
  intro hSign
  rw [ensures_ite_iff]
  constructor
  · intro _
    rw [ensures_pure_iff]
    exact fun _ => rfl
  intro hRange
  have hEmpty : machine.rest.free = [] := by
    rcases hNone with (hNegative | hOutside) | hEmpty
    · exact absurd hNegative hSign
    · exact absurd hOutside hRange
    · exact hEmpty
  have hAlloc :
      pageManager.pmmAllocPage machine = (0, machine) := by
    simp only [pageManager, Vmm.pmmAllocPage, spacesOf,
      hEmpty, withPaging, withSpaces, Vmm.Spaces.withPaging]
    rw [← hEmpty]
  have hLoop :
      ∀ newPageEnd oldPageEnd,
        Ensures Foreign
          (loop (throw .fault)
            (sbrkVisit (machine.rest.processes slot).pml4Phys
              newPageEnd) (2 ^ 53) oldPageEnd)
          machine
          fun _ after => after = machine := by
    intro newPageEnd oldPageEnd
    apply ensures_loop fun _ _ middle => middle = machine
    · exact fun _ _ _ =>
        (ensures_throw_iff _ _ _ _).mpr (.inl rfl)
    · rintro _ vaddr _ rfl
      unfold sbrkVisit
      rw [ensures_ite_iff]
      constructor
      · intro _
        simp only [pmmAllocPage, hAlloc, ensures_bind_iff,
          ensures_get_iff, ensures_set_iff, ensures_pure_iff,
          if_true, continues_inr]
      · intro _
        rw [ensures_pure_iff, continues_inr]
    · trivial
  rw [ensures_bind_iff]
  apply (hLoop _ _).mono
  rintro grown _ rfl
  cases grown with
  | false =>
      simp only [Bool.not_false, if_true, ensures_pure_iff]
      exact fun _ => trivial
  | true =>
      simp only [Bool.not_true, Bool.false_eq_true, if_false,
        ensures_bind_iff, modifyProcess, ensures_modify_iff,
        ensures_pure_iff]
      exact fun hNever => by cases hNever

theorem preserves_processSbrk
    (frames : List Nat)
    (increment : Nat) :
    Preserves (σ := UserMachine δ) Foreign (FreeAmong frames)
      (processSbrk increment) := by
  unfold processSbrk
  refine (Preserves.of_get _).bind fun machine => ?_
  dsimp only
  split
  · exact Preserves.of_pure _ _
  refine Preserves.ite (Preserves.of_pure _ _) ?_
  refine Preserves.ite (Preserves.of_pure _ _) ?_
  refine Preserves.ite (Preserves.of_pure _ _) ?_
  refine Preserves.bind ?_ fun grown => ?_
  · exact Preserves.loop (Preserves.of_throw _ (.inl rfl))
      (fun vaddr => preserves_sbrkVisit frames _ _ vaddr) _ _
  · refine Preserves.ite (Preserves.of_pure _ _) ?_
    refine Preserves.bind ?_ fun _ => Preserves.of_pure _ _
    exact Preserves.of_modify fun _ hMachine => hMachine

end Userspace

end Whirliscope

------------------------------------------------------------
-- Calls That Fail
------------------------------------------------------------

namespace Whirliscope

namespace Userspace

open ByteMemory FaultProgram Syscall

variable {δ : Type}

/- The free list of the allocator: frames, each once. -/
def FramesFree
    (machine : UserMachine δ) : Prop :=
  machine.rest.free.Nodup ∧ 0 ∉ machine.rest.free

/- Calls of `process_sbrk`, one after the other. -/
inductive SbrkRun
    (first : UserMachine δ) : UserMachine δ → Prop
| refl : SbrkRun first first
| sbrk
    {middle after : UserMachine δ}
    {increment : Nat}
    {result : Option Nat}
    (hRun : SbrkRun first middle)
    (hReturns :
      Returns (processSbrk increment) middle result after) :
    SbrkRun first after

theorem SbrkRun.framesFree
    {first machine : UserMachine δ}
    (hFrames : FramesFree first)
    (hRun : SbrkRun first machine) :
    FramesFree machine := by
  have hAmong : FreeAmong first.rest.free machine := by
    induction hRun with
    | refl => exact List.suffix_refl _
    | sbrk hRun hReturns ih =>
        exact (preserves_processSbrk _ _ _ ih).of_returns
          hReturns
  exact ⟨hFrames.1.sublist hAmong.sublist,
    fun hZero => hFrames.2 (hAmong.subset hZero)⟩

/-
  A failed call has changed nothing: not the break, not the
  translations, it keeps no frame, and what could be
  requested before it can be requested after it.
-/
structure Restored
    (before after : UserMachine δ) : Prop where
  heapCurrent :
    ∀ slot,
      (after.rest.processes slot).heapCurrent =
        (before.rest.processes slot).heapCurrent
  translations :
    ∀ slot vaddr,
      Vmm.vmmVirtToPhys after.tables
          (before.rest.processes slot).pml4Phys vaddr =
        Vmm.vmmVirtToPhys before.tables
          (before.rest.processes slot).pml4Phys vaddr
  frames :
    ∀ frame ∈ before.rest.free, frame ∈ after.rest.free
  later :
    ∀ increment oldBreak grown,
      Returns (processSbrk increment) before (some oldBreak)
          grown →
        ∃ final,
          Returns (processSbrk increment) after
            (some oldBreak) final

theorem Restored.refl
    (machine : UserMachine δ) :
    Restored machine machine where
  heapCurrent := fun _ => rfl
  translations := fun _ _ => rfl
  frames := fun _ hFrame => hFrame
  later := fun _ _ grown hReturns => ⟨grown, hReturns⟩

section

variable {first machine after : UserMachine δ}
variable {increment : Nat}

/-
  A failed call restores what it found exactly when its
  checks refuse it or no frame is free.
-/
theorem sbrk_restored_iff
    (hFrames : FramesFree first)
    (hRun : SbrkRun first machine)
    (hFails :
      Returns (processSbrk increment) machine none after) :
    Restored machine after ↔
      Refused increment machine ∨ machine.rest.free = [] := by
  constructor
  · intro hRestored
    by_contra hTaken
    rw [not_or] at hTaken
    cases hFree : machine.rest.free with
    | nil => exact hTaken.2 hFree
    | cons page rest =>
        have hAmong : FreeAmong rest after :=
          (ensures_processSbrk_takes hTaken.1
            hFree).of_returns hFails rfl
        have hNodup := (hRun.framesFree hFrames).1
        rw [hFree, List.nodup_cons] at hNodup
        have hBack := hRestored.frames page
          (by rw [hFree]; exact List.mem_cons_self)
        exact hNodup.1 (hAmong.subset hBack)
  · intro hNone
    have hSame : after = machine :=
      (ensures_processSbrk_untouched hNone).of_returns hFails
        rfl
    rw [hSame]
    exact Restored.refl machine

end

/- A process whose heap is empty, and four free frames. -/
def thinMachine : UserMachine Unit :=
  { bootMachine with
    rest :=
      { bootMachine.rest with
        processes := fun _ =>
          preparedProcess 1 initName 0x1000 0x400000
        scheduler := { schedulerInit with current := some 0 }
        free := [0x2000, 0x3000, 0x4000, 0x5000] } }

/- What is left of it after a request for two pages. -/
def thinAfter : UserMachine Unit :=
  finalOr thinMachine ((processSbrk 8192).run thinMachine)

theorem thinMachine_fails :
    Returns (processSbrk 8192) thinMachine none thinAfter :=
  returns_finalOr thinMachine (by decide)

theorem thinMachine_framesFree :
    FramesFree thinMachine := by
  constructor <;> decide

/- The request for two pages is not undone. -/
theorem thinMachine_not_restored :
    ¬ Restored thinMachine thinAfter := by
  intro hRestored
  rcases (sbrk_restored_iff thinMachine_framesFree .refl
    thinMachine_fails).mp hRestored with hRefused | hEmpty
  · have hChecks :
        signed 8192 < 0 ∨
          wrap 64 (userspaceHeapBase + 8192) <
            userspaceHeapBase ∨
          wrap 64 (userspaceHeapBase + 8192) >
            userspaceHeapLimit :=
      hRefused
    revert hChecks
    decide
  · cases hEmpty

/- Its first page stays mapped, and all frames are gone. -/
theorem failed_sbrk_keeps_pages :
    ¬ ∀ (first machine after : UserMachine Unit)
        (increment : Nat),
      FramesFree first → SbrkRun first machine →
      Returns (processSbrk increment) machine none after →
      Restored machine after := by
  intro hAll
  have hRestored :=
    hAll thinMachine thinMachine thinAfter 8192
      thinMachine_framesFree .refl thinMachine_fails
  have hPage := hRestored.translations 0 userspaceHeapBase
  revert hPage
  decide

end Userspace

end Whirliscope
