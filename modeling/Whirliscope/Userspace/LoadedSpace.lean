import Whirliscope.Userspace.LoadSafety
import Whirliscope.Userspace.Tasks
import Whirliscope.Userspace.UserSpace

/-
  The pages of a program that was just loaded.

  A program that is loaded has the pages of its segments and
  its stack page, and no other page in the user half.

  Key definitions include:
    * `SegmentPage`, `ImagePage`
    * `UserSpace.Has`

  Main theorem:
    * `ensures_load_holds`
-/

------------------------------------------------------------
-- Pages of an Image
------------------------------------------------------------

namespace Whirliscope

namespace Elf

open ByteMemory

/- The bytes of a page of a segment. -/
def segmentBytes
    (image : Bytes)
    (phdr : Elf64Phdr)
    (pageVaddr : Nat) : Bytes :=
  write zeros (wrapSub 64 (copyStart phdr pageVaddr) pageVaddr)
    (copyEnd phdr pageVaddr - copyStart phdr pageVaddr)
    fun i => image (wrap 64 (fileOffset phdr pageVaddr + i))

/- The page at this number, with its flags and bytes. -/
abbrev PagePlan :=
  Nat → Nat → Bytes → Prop

/- One page of a segment. -/
def PageAt
    (image : Bytes)
    (phdr : Elf64Phdr)
    (pageVaddr : Nat) : PagePlan :=
  fun number flags bytes =>
    number = Vmm.pageNumber pageVaddr ∧
      flags = segmentMapFlags phdr ∧
      bytes = segmentBytes image phdr pageVaddr

/- The pages of a segment below an address. -/
def PageBelow
    (image : Bytes)
    (phdr : Elf64Phdr)
    (limit : Nat) : PagePlan :=
  fun number flags bytes =>
    ∃ pageVaddr,
      vmmPageSize ∣ pageVaddr ∧
        firstPage phdr ≤ pageVaddr ∧
        pageVaddr < limit ∧
        PageAt image phdr pageVaddr number flags bytes

/- The pages of a header. -/
def SegmentPage
    (image : Bytes)
    (phdr : Elf64Phdr) : PagePlan :=
  fun number flags bytes =>
    phdr.pType = ptLoad ∧
      PageBelow image phdr (endPage phdr) number flags bytes

/- The pages of the first headers of an image. -/
def ImagePageBelow
    (image : Bytes)
    (elf : Elf64Image)
    (limit : Nat) : PagePlan :=
  fun number flags bytes =>
    ∃ i, i < limit ∧
      SegmentPage image (elf.phdr image i) number flags bytes

/- Two plans together. -/
def PagePlan.or
    (left right : PagePlan) : PagePlan :=
  fun number flags bytes =>
    left number flags bytes ∨ right number flags bytes

/- The pages below the next one. -/
theorem pageBelow_next_iff
    (image : Bytes)
    {phdr : Elf64Phdr}
    {pageVaddr : Nat}
    (hAligned : vmmPageSize ∣ pageVaddr)
    (hAbove : firstPage phdr ≤ pageVaddr)
    (number flags : Nat)
    (bytes : Bytes) :
    PageBelow image phdr (pageVaddr + vmmPageSize) number flags
        bytes ↔
      PageBelow image phdr pageVaddr number flags bytes ∨
        PageAt image phdr pageVaddr number flags bytes := by
  constructor
  · rintro ⟨page, hPage, hFirst, hLimit, hAt⟩
    by_cases hBelow : page < pageVaddr
    · exact .inl ⟨page, hPage, hFirst, hBelow, hAt⟩
    · have hSame : page = pageVaddr := by
        unfold vmmPageSize at *
        omega
      exact .inr (hSame ▸ hAt)
  · have hLimit : pageVaddr < pageVaddr + vmmPageSize := by
      unfold vmmPageSize
      omega
    rintro (⟨page, hPage, hFirst, hBelow, hAt⟩ | hAt)
    · exact ⟨page, hPage, hFirst, Nat.lt_trans hBelow hLimit,
        hAt⟩
    · exact ⟨pageVaddr, hAligned, hAbove, hLimit, hAt⟩

theorem imagePageBelow_succ_iff
    (image : Bytes)
    (elf : Elf64Image)
    (i number flags : Nat)
    (bytes : Bytes) :
    ImagePageBelow image elf (i + 1) number flags bytes ↔
      ImagePageBelow image elf i number flags bytes ∨
        SegmentPage image (elf.phdr image i) number flags
          bytes := by
  constructor
  · rintro ⟨j, hj, hPage⟩
    by_cases hBelow : j < i
    · exact .inl ⟨j, hBelow, hPage⟩
    · have hSame : j = i := by omega
      exact .inr (hSame ▸ hPage)
  · rintro (⟨j, hj, hPage⟩ | hPage)
    · exact ⟨j, by omega, hPage⟩
    · exact ⟨i, by omega, hPage⟩

/- The part that is copied into a page lies in the page. -/
theorem copy_inside
    {phdr : Elf64Phdr}
    (hWords : phdr.Words)
    {pageVaddr : Nat}
    (hAligned : vmmPageSize ∣ pageVaddr)
    (hAbove : firstPage phdr ≤ pageVaddr)
    (hWord : pageVaddr < 2 ^ 64) :
    wrapSub 64 (copyStart phdr pageVaddr) pageVaddr =
        copyStart phdr pageVaddr - pageVaddr ∧
      copyStart phdr pageVaddr - pageVaddr +
          (copyEnd phdr pageVaddr -
            copyStart phdr pageVaddr) ≤ 4096 := by
  have hFirst := firstPage_eq hWords
  have hVaddr := hWords.pVaddr
  have hStart :
      pageVaddr ≤ copyStart phdr pageVaddr ∧
        copyStart phdr pageVaddr < 2 ^ 64 ∧
        copyStart phdr pageVaddr < pageVaddr + 4096 := by
    unfold copyStart
    split_ifs <;> omega
  have hEnd : copyEnd phdr pageVaddr ≤ pageVaddr + 4096 := by
    have hPageEnd :
        wrap 64 (pageVaddr + vmmPageSize) ≤
          pageVaddr + 4096 :=
      Nat.mod_le _ _
    unfold copyEnd
    dsimp only
    split_ifs <;> omega
  exact ⟨wrapSub_of_le hStart.2.1 hStart.1, by omega⟩

end Elf

end Whirliscope

------------------------------------------------------------
-- Planned Pages
------------------------------------------------------------

namespace Whirliscope

namespace Userspace

open ByteMemory Vmm
open Elf (PagePlan)

/-
  The user half of the space has exactly the planned pages,
  whatever their frames are.
-/
def UserSpace.Has
    (space : UserSpace)
    (plan : PagePlan) : Prop :=
  ∀ number flags bytes, number < 2 ^ 35 →
    ((∃ physical,
        space number = some ⟨⟨physical, flags⟩, bytes⟩) ↔
      plan number flags bytes)

theorem UserSpace.Has.of_iff
    {space : UserSpace}
    {plan plan' : PagePlan}
    (hHas : space.Has plan)
    (hIff :
      ∀ number flags bytes,
        plan' number flags bytes ↔ plan number flags bytes) :
    space.Has plan' :=
  fun number flags bytes hNumber =>
    (hHas number flags bytes hNumber).trans
      (hIff number flags bytes).symm

/- A page at a number that was free is planned as well. -/
theorem UserSpace.Has.put
    {space : UserSpace}
    {plan : PagePlan}
    (hHas : space.Has plan)
    {target physical flags : Nat}
    {bytes : Bytes}
    (hNone : target < 2 ^ 35 → space target = none) :
    (space.put target ⟨⟨physical, flags⟩, bytes⟩).Has
      (plan.or fun number flags' bytes' =>
        number = target ∧ flags' = flags ∧
          bytes' = bytes) := by
  intro number flags' bytes' hNumber
  unfold PagePlan.or
  rw [← hHas number flags' bytes' hNumber]
  by_cases hTarget : number = target
  · subst hTarget
    rw [space.put_self, hNone hNumber]
    constructor
    · rintro ⟨physical', hPage⟩
      cases hPage
      exact .inr ⟨rfl, rfl, rfl⟩
    · rintro (⟨_, hPage⟩ | ⟨-, rfl, rfl⟩)
      · cases hPage
      · exact ⟨physical, rfl⟩
  · rw [space.put_of_ne _ hTarget]
    constructor
    · exact .inl
    · rintro (hPage | ⟨hSame, -⟩)
      · exact hPage
      · exact absurd hSame hTarget

variable {δ : Type}

/-
  The machine holds a space with the planned pages, and a
  cleared frame for the stack.
-/
def HoldsPlan
    (root stack : Nat)
    (plan : PagePlan)
    (machine : UserMachine δ) : Prop :=
  ∃ space used,
    Holds root space used machine ∧ space.Has plan ∧
      Reserved space used stack zeros machine

theorem HoldsPlan.of_iff
    {root stack : Nat}
    {plan plan' : PagePlan}
    {machine : UserMachine δ}
    (hHolds : HoldsPlan root stack plan machine)
    (hIff :
      ∀ number flags bytes,
        plan' number flags bytes ↔ plan number flags bytes) :
    HoldsPlan root stack plan' machine := by
  rcases hHolds with ⟨space, used, hSpace, hHas, hStack⟩
  exact ⟨space, used, hSpace, hHas.of_iff hIff, hStack⟩

/- A frame is cleared, filled in part and mapped. -/
theorem HoldsPlan.newPage
    {root stack : Nat}
    {plan : PagePlan}
    {machine : UserMachine δ}
    (hHolds : HoldsPlan root stack plan machine)
    (hTaken : (pageManager.pmmAllocPage machine).1 ≠ 0)
    (target : Nat)
    {flags offset count : Nat}
    (hFlags : UserFlags flags)
    (hInside : offset + count ≤ 4096)
    (source : Bytes) :
    let taken := pageManager.pmmAllocPage machine
    let mapped :=
      pageManager.vmmMapPageInSpace root target taken.1 flags
        (pageManager.storePhys (taken.1 + offset) count source
          (pageManager.storePhys taken.1 vmmPageSize zeros
            taken.2))
    mapped.1 = true →
      HoldsPlan root stack
        (plan.or fun number flags' bytes =>
          number = pageNumber target ∧ flags' = flags ∧
            bytes = write zeros offset count source)
        mapped.2 := by
  intro taken mapped hMapped
  rcases hHolds with ⟨space, used, hSpace, hHas, hStack⟩
  rcases (hSpace.newPage hTaken target hFlags hInside
      source).2 hMapped with ⟨hAfter, hNone, hKept⟩
  exact ⟨_, _, hAfter, hHas.put hNone,
    hKept stack zeros hStack⟩

end Userspace

end Whirliscope

------------------------------------------------------------
-- Loading the Segments
------------------------------------------------------------

namespace Whirliscope

namespace Userspace

open ByteMemory FaultProgram Vmm
open Elf (Elf64Phdr Elf64Image PagePlan)

/- The flags of a segment are user flags. -/
theorem segmentMapFlags_userFlags
    (phdr : Elf64Phdr) :
    UserFlags (Elf.segmentMapFlags phdr) := by
  unfold Elf.segmentMapFlags
  split_ifs <;> exact ⟨by decide, by decide, by decide⟩

/- A store of no bytes. -/
theorem storePhys_zero
    {δ : Type}
    (address : Nat)
    (source : Bytes)
    (machine : UserMachine δ) :
    pageManager.storePhys address 0 source machine =
      machine := by
  change
    { machine with
      memory := write machine.memory address 0 source } =
      machine
  rw [write_zero]

section Loader

variable {δ : Type}
variable {root stack : Nat} {image : Bytes}

/- The loader holds the plan in its machine. -/
abbrev LoaderHolds
    (root stack : Nat)
    (plan : PagePlan)
    (loading : Elf.Loading (UserMachine δ)) : Prop :=
  HoldsPlan root stack plan loading.machine

theorem ensures_loadSegmentPage
    {plan : PagePlan}
    {loading : Elf.Loading (UserMachine δ)}
    (hHolds : LoaderHolds root stack plan loading)
    {phdr : Elf64Phdr}
    (hWords : phdr.Words)
    {pageVaddr : Nat}
    (hAligned : vmmPageSize ∣ pageVaddr)
    (hAbove : Elf.firstPage phdr ≤ pageVaddr)
    (hWord : pageVaddr < 2 ^ 64) :
    Ensures (fun _ => True)
      (Elf.loadSegmentPage pageManager root image phdr
        pageVaddr)
      loading
      fun ok final =>
        ok = true →
          LoaderHolds root stack
            (plan.or (Elf.PageAt image phdr pageVaddr))
            final := by
  have hInside :=
    Elf.copy_inside hWords hAligned hAbove hWord
  have hFlags := segmentMapFlags_userFlags phdr
  unfold Elf.loadSegmentPage Elf.pmmAllocPage Elf.storePhys
    Elf.readImage Elf.vmmMapPageInSpace
  simp only [ensures_bind_iff, ensures_get_iff,
    ensures_set_iff, ensures_pure_iff]
  rw [ensures_ite_iff]
  constructor
  · intro _
    rw [ensures_pure_iff]
    exact fun hFalse => absurd hFalse Bool.false_ne_true
  intro hTaken
  simp only [ensures_bind_iff, ensures_modify_iff]
  rw [ensures_ite_iff]
  constructor
  · intro _
    simp only [ensures_bind_iff, ensures_get_iff,
      ensures_set_iff, ensures_pure_iff, ensures_modify_iff]
    rw [hInside.1]
    intro hMapped
    have hNew :=
      hHolds.newPage hTaken pageVaddr hFlags hInside.2 _
        hMapped
    apply hNew.of_iff
    intro number flags bytes
    unfold PagePlan.or Elf.PageAt Elf.segmentBytes
    rw [hInside.1]
  · intro hEmpty
    simp only [ensures_bind_iff, ensures_get_iff,
      ensures_set_iff, ensures_pure_iff]
    intro hMapped
    have hNew :=
      hHolds.newPage hTaken pageVaddr hFlags
        (show 0 + 0 ≤ 4096 by decide) zeros
    dsimp only at hNew
    rw [storePhys_zero, write_zero] at hNew
    apply (hNew hMapped).of_iff
    intro number flags bytes
    unfold PagePlan.or Elf.PageAt Elf.segmentBytes
    rw [Nat.sub_eq_zero_of_le (Nat.le_of_not_lt hEmpty),
      write_zero]

/- The pages of a segment that was loaded up to a page. -/
structure SegmentLoaded
    (root stack : Nat)
    (image : Bytes)
    (phdr : Elf64Phdr)
    (plan : PagePlan)
    (pageVaddr : Nat)
    (loading : Elf.Loading (UserMachine δ)) : Prop where
  aligned : vmmPageSize ∣ pageVaddr
  above : Elf.firstPage phdr ≤ pageVaddr
  inside :
    pageVaddr ≤ Elf.endPage phdr ∨
      pageVaddr = Elf.firstPage phdr
  holds :
    LoaderHolds root stack
      (plan.or (Elf.PageBelow image phdr pageVaddr)) loading

/- One pass of the page loop. -/
theorem ensures_loadPageVisit
    {plan : PagePlan}
    {loading : Elf.Loading (UserMachine δ)}
    {phdr : Elf64Phdr}
    (hWords : phdr.Words)
    {pageVaddr : Nat}
    (hLoaded :
      SegmentLoaded root stack image phdr plan pageVaddr
        loading) :
    Ensures (fun _ => True)
      (Elf.loadPageVisit pageManager root image phdr
        (Elf.endPage phdr) pageVaddr)
      loading
      (Continues (SegmentLoaded root stack image phdr plan)
        fun ok final =>
          ok = true →
            LoaderHolds root stack
              (plan.or
                (Elf.PageBelow image phdr
                  (Elf.endPage phdr)))
              final) := by
  have hEnd := Elf.endPage_bound phdr
  have hAligned := hLoaded.aligned
  unfold Elf.loadPageVisit
  rw [ensures_ite_iff]
  constructor
  · intro hInside
    have hLe : pageVaddr + vmmPageSize ≤ Elf.endPage phdr := by
      unfold vmmPageSize at *
      omega
    rw [ensures_bind_iff]
    apply (ensures_loadSegmentPage hLoaded.holds hWords
      hAligned hLoaded.above (by omega)).mono
    intro ok final hPage
    cases ok with
    | false =>
        simp only [Bool.not_false, if_true, ensures_pure_iff]
        exact fun hFalse => absurd hFalse Bool.false_ne_true
    | true =>
        have hWrap :
            wrap 64 (pageVaddr + vmmPageSize) =
              pageVaddr + vmmPageSize :=
          wrap_of_lt (by unfold vmmPageSize at *; omega)
        simp only [Bool.not_true, Bool.false_eq_true,
          if_false, ensures_pure_iff]
        rw [hWrap]
        refine
          { aligned := Nat.dvd_add hAligned (dvd_refl _)
            above := Nat.le_trans hLoaded.above
              (Nat.le_add_right _ _)
            inside := .inl hLe
            holds := (hPage rfl).of_iff ?_ }
        intro number flags bytes
        unfold PagePlan.or
        rw [Elf.pageBelow_next_iff image hAligned
          hLoaded.above, or_assoc]
  · intro hOutside
    rw [ensures_pure_iff]
    intro _
    apply hLoaded.holds.of_iff
    intro number flags bytes
    -- A segment without pages has none below its first page.
    have hSame :
        Elf.PageBelow image phdr (Elf.endPage phdr) number
            flags bytes ↔
          Elf.PageBelow image phdr pageVaddr number flags
            bytes := by
      rcases hLoaded.inside with hLe | hFirst
      · rw [Nat.le_antisymm hLe (Nat.le_of_not_lt hOutside)]
      · constructor
        · rintro ⟨page, -, hAbove, hLimit, -⟩
          omega
        · rintro ⟨page, -, hAbove, hLimit, -⟩
          omega
    unfold PagePlan.or
    rw [hSame]

theorem ensures_loadUserSegment
    {plan : PagePlan}
    {loading : Elf.Loading (UserMachine δ)}
    (hHolds : LoaderHolds root stack plan loading)
    {phdr : Elf64Phdr}
    (hWords : phdr.Words) :
    Ensures (fun _ => True)
      (Elf.loadUserSegment pageManager root image phdr)
      loading
      fun ok final =>
        ok = true →
          LoaderHolds root stack
            (plan.or (Elf.SegmentPage image phdr)) final := by
  unfold Elf.loadUserSegment
  rw [ensures_ite_iff]
  constructor
  · intro hOther
    rw [ensures_pure_iff]
    intro _
    apply hHolds.of_iff
    intro number flags bytes
    constructor
    · rintro (hOld | hNew)
      · exact hOld
      · exact absurd hNew.1 hOther
    · exact .inl
  intro hLoad
  rw [ensures_ite_iff]
  constructor
  · intro _
    rw [ensures_pure_iff]
    exact fun hFalse => absurd hFalse Bool.false_ne_true
  intro _
  have hSegment :
      Elf.SegmentPage image phdr =
        Elf.PageBelow image phdr (Elf.endPage phdr) := by
    funext number flags bytes
    exact propext
      ⟨And.right, fun h => ⟨Decidable.not_not.mp hLoad, h⟩⟩
  rw [hSegment]
  apply ensures_loop fun _ pageVaddr state =>
    SegmentLoaded root stack image phdr plan pageVaddr state
  · exact fun _ _ _ => (ensures_throw_iff _ _ _ _).mpr trivial
  · exact fun _ _ _ hLoaded =>
      ensures_loadPageVisit hWords hLoaded
  · refine
      { aligned := ?_
        above := Nat.le_refl _
        inside := .inr rfl
        holds := hHolds.of_iff ?_ }
    · rw [Elf.firstPage_eq hWords]
      exact Nat.dvd_sub_mod phdr.pVaddr
    · intro number flags bytes
      constructor
      · rintro (hOld | ⟨page, -, hAbove, hLimit, -⟩)
        · exact hOld
        · omega
      · exact .inl

/- Loading the segments of an image, one after the other. -/
theorem ensures_loadUserImageSegments
    {plan : PagePlan}
    {loading : Elf.Loading (UserMachine δ)}
    (hHolds : LoaderHolds root stack plan loading)
    (elf : Elf64Image)
    (hPhnum : elf.phnum < 2 ^ 16) :
    Ensures (fun _ => True)
      (Elf.loadUserImageSegments pageManager root image elf)
      loading
      fun ok final =>
        ok = true →
          LoaderHolds root stack
            (plan.or (Elf.ImagePageBelow image elf elf.phnum))
            final := by
  unfold Elf.loadUserImageSegments
  apply ensures_loop fun _ i state =>
    i ≤ elf.phnum ∧
      LoaderHolds root stack
        (plan.or (Elf.ImagePageBelow image elf i)) state
  · exact fun _ _ _ => (ensures_throw_iff _ _ _ _).mpr trivial
  · rintro _ i state ⟨hLe, hState⟩
    unfold Elf.loadHeaderVisit
    rw [ensures_ite_iff]
    constructor
    · intro hInside
      unfold Elf.readImage
      simp only [ensures_bind_iff, ensures_modify_iff,
        ensures_pure_iff]
      let header := Elf.phdrOffset elf.phoff elf.phentsize i
      have hRead :
          LoaderHolds root stack
            (plan.or (Elf.ImagePageBelow image elf i))
            { machine := state.machine
              requests :=
                state.requests ++
                  [.read header Elf.phdrSize] } := hState
      apply (ensures_loadUserSegment hRead
        (Elf.elf64Phdr_words image header)).mono
      intro ok final hSegment
      cases ok with
      | false =>
          simp only [Bool.not_false, if_true,
            ensures_pure_iff]
          exact fun hFalse => absurd hFalse Bool.false_ne_true
      | true =>
          have hWrap : wrap 16 (i + 1) = i + 1 :=
            wrap_of_lt (by omega)
          simp only [Bool.not_true, Bool.false_eq_true,
            if_false, ensures_pure_iff]
          rw [hWrap]
          refine ⟨by omega, (hSegment rfl).of_iff ?_⟩
          intro number flags bytes
          unfold PagePlan.or
          rw [Elf.imagePageBelow_succ_iff, or_assoc]
          exact Iff.rfl
    · intro hOutside
      rw [ensures_pure_iff]
      intro _
      have hEnd : i = elf.phnum := by omega
      exact hEnd ▸ hState
  · refine ⟨Nat.zero_le _, hHolds.of_iff ?_⟩
    intro number flags bytes
    constructor
    · rintro (hOld | ⟨i, hi, -⟩)
      · exact hOld
      · omega
    · exact .inl

end Loader

end Userspace

end Whirliscope

------------------------------------------------------------
-- Loading a Program
------------------------------------------------------------

namespace Whirliscope

namespace Userspace

open ByteMemory FaultProgram Vmm Syscall
open Elf (Elf64Image Loading PagePlan)

/- The stack page. -/
def stackPage : PagePlan :=
  fun number flags bytes =>
    number = pageNumber (userspaceStackTop - vmmPageSize) ∧
      flags = userDataFlags ∧ bytes = zeros

/- The pages of a program. -/
def ProgramPage
    (image : Bytes)
    (elf : Elf64Image) : PagePlan :=
  (Elf.ImagePageBelow image elf elf.phnum).or stackPage

variable {δ : Type}

/- The program in a slot, as it was loaded. -/
structure LoadedProgram
    (image : Bytes)
    (elf : Elf64Image)
    (slot : Slot)
    (machine : UserMachine δ) : Prop where
  holds :
    ∃ space used,
      Holds (machine.rest.processes slot).pml4Phys space used
          machine ∧
        space.Has (ProgramPage image elf)
  heapStart :
    (machine.rest.processes slot).heapStart =
      userspaceHeapBase
  heapCurrent :
    (machine.rest.processes slot).heapCurrent =
      userspaceHeapBase
  heapEnd :
    (machine.rest.processes slot).heapEnd =
      userspaceHeapLimit

/- Running the loader on a machine. -/
theorem ensures_runLoader
    {α : Type}
    {program : Elf.LoadM (UserMachine δ) α}
    {machine : UserMachine δ}
    {post : α → UserMachine δ → Prop}
    (hProgram :
      Ensures (fun _ => True) program ⟨machine, []⟩
        fun result loading => post result loading.machine) :
    Ensures (fun _ => True) (runLoader program) machine
      post := by
  unfold runLoader
  rw [ensures_bind_iff, ensures_get_iff]
  split
  · rename_i result loading hRun
    rw [ensures_bind_iff, ensures_set_iff, ensures_pure_iff]
    exact hProgram.of_returns hRun
  · exact (ensures_throw_iff _ _ _ _).mpr trivial

/- A new space, and a frame for its stack. -/
theorem holdsPlan_created
    {machine : UserMachine δ}
    (hRooted : Rooted machine)
    (hCreated :
      (Vmm.vmmCreateAddressSpace (spacesOf machine)).1 ≠ 0) :
    let created := Vmm.vmmCreateAddressSpace (spacesOf machine)
    let taken :=
      pageManager.pmmAllocPage (withSpaces machine created.2)
    taken.1 ≠ 0 →
      HoldsPlan created.1 taken.1 (fun _ _ _ => False)
        (pageManager.storePhys taken.1 vmmPageSize zeros
          taken.2) := by
  intro created taken hTaken
  rcases (holds_created hRooted hCreated).alloc hTaken with
    ⟨hHolds, hSpare⟩
  have hUsed : taken.1 ∈ [] ++ [taken.1] := by simp
  have hCleared :=
    hHolds.store hUsed hSpare
      (show 0 + vmmPageSize ≤ 4096 from Nat.le_refl _) zeros
  refine ⟨_, _, hCleared, ?_, hUsed, hSpare, ?_⟩
  · intro number flags bytes _
    constructor
    · rintro ⟨physical, hNone⟩
      cases hNone
    · exact False.elim
  · intro i hi
    exact write_of_mem (Nat.le_add_right _ _)
      (Nat.add_lt_add_left hi _)

/- The flags of the stack and of heap pages. -/
theorem userDataFlags_userFlags :
    UserFlags userDataFlags :=
  ⟨by decide, by decide, by decide⟩

/- Mapping the stack completes the program. -/
theorem HoldsPlan.mapStack
    {root stack : Nat}
    {image : Bytes}
    {elf : Elf64Image}
    {machine : UserMachine δ}
    (hPlan :
      HoldsPlan root stack
        (Elf.ImagePageBelow image elf elf.phnum) machine) :
    let mapped :=
      pageManager.vmmMapPageInSpace root
        (userspaceStackTop - vmmPageSize) stack userDataFlags
        machine
    mapped.1 = true →
      ∃ space used,
        Holds root space used mapped.2 ∧
          space.Has (ProgramPage image elf) := by
  intro mapped hMapped
  rcases hPlan with ⟨space, used, hHolds, hHas, hStack⟩
  have hFlags := userDataFlags_userFlags
  have hFrame := hHolds.outstanding.frame stack hStack.mem
  have hMap :=
    hHolds.map (userspaceStackTop - vmmPageSize) hStack
      hFlags.user
      ⟨hFrame.2.2, hFlags.flags_lt, hFlags.flags_clear⟩
  have hHeld := hMap.1
  rw [if_pos hMapped] at hHeld
  exact ⟨_, used, hHeld, hHas.put (hMap.2 hMapped)⟩

theorem withProcess_self
    (machine : UserMachine δ)
    (slot : Slot)
    (process : Process) :
    (withProcess machine slot process).rest.processes slot =
      process :=
  if_pos rfl

theorem setCwd_heapStart
    (path : List UInt8)
    (process : Process) :
    (setCwd path process).heapStart = process.heapStart := by
  unfold setCwd
  split_ifs <;> rfl

/- The record of the slot is filled in. -/
theorem ensures_prepare_loaded
    {machine : UserMachine δ}
    {root : Nat}
    {image : Bytes}
    {elf : Elf64Image}
    (hHolds :
      ∃ space used,
        Holds root space used machine ∧
          space.Has (ProgramPage image elf))
    (slot : Slot)
    (pid : Nat)
    (name cwd : List UInt8) :
    Ensures (fun _ => True)
      (do
        let prepared ←
          processPrepareUserImage slot pid name root elf
        if !prepared then return false
        modifyProcess slot fun process =>
          (setCwd cwd process).withStates .ready .ready
        return true)
      machine
      fun ok after =>
        ok = true → LoadedProgram image elf slot after := by
  have hRefused :
      ∀ after : UserMachine δ,
        false = true → LoadedProgram image elf slot after :=
    fun _ hFalse => absurd hFalse Bool.false_ne_true
  unfold processPrepareUserImage modifyProcess
  rw [ensures_bind_iff, ensures_ite_iff]
  constructor
  · intro _
    simp only [ensures_pure_iff, Bool.not_false, if_true]
    exact hRefused _
  intro _
  rw [ensures_ite_iff]
  constructor
  · intro _
    simp only [ensures_pure_iff, Bool.not_false, if_true]
    exact hRefused _
  intro _
  simp only [ensures_bind_iff, ensures_modify_iff,
    ensures_pure_iff, Bool.not_true, Bool.false_eq_true,
    if_false]
  intro _
  let process :=
    setCwd cwd (preparedProcess pid name root elf.entry)
  have hProcess :
      ∀ after : UserMachine δ,
        after.rest.processes slot =
            process.withStates .ready .ready →
          (∃ space used,
            Holds root space used after ∧
              space.Has (ProgramPage image elf)) →
          LoadedProgram image elf slot after := by
    intro after hSlot hHeld
    rcases setCwd_fields cwd
        (preparedProcess pid name root elf.entry) with
      ⟨hPml4, hCurrent, hEnd⟩
    have hStart :=
      setCwd_heapStart cwd
        (preparedProcess pid name root elf.entry)
    constructor
    · rw [hSlot]
      change
        ∃ space used,
          Holds (setCwd cwd _).pml4Phys space used after ∧ _
      rw [hPml4]
      exact hHeld
    · rw [hSlot]
      exact hStart
    · rw [hSlot]
      exact hCurrent
    · rw [hSlot]
      exact hEnd
  apply hProcess
  · rw [withProcess_self, withProcess_self]
  · rcases hHolds with ⟨space, used, hSpace, hHas⟩
    exact ⟨space, used,
      hSpace.of_bytes _ rfl rfl fun _ _ _ _ _ => rfl, hHas⟩

/- A load that succeeds leaves the program in its slot. -/
theorem ensures_load_holds
    {boot : UserMachine δ}
    (hRooted : Rooted boot)
    (slot : Slot)
    (pid : Nat)
    (name : List UInt8)
    (imageBytes : Bytes)
    (imageSize : Nat)
    (cwd : List UInt8) :
    Ensures (fun _ => True)
      (processLoadUserImageBytes slot pid name imageBytes
        imageSize cwd)
      boot
      fun ok machine =>
        ok = true →
          ∃ elf,
            Elf.elf64ValidateUserImage (some imageBytes)
                imageSize = some elf ∧
              LoadedProgram imageBytes elf slot machine := by
  have hRefused :
      ∀ after : UserMachine δ,
        false = true →
          ∃ elf,
            Elf.elf64ValidateUserImage (some imageBytes)
                imageSize = some elf ∧
              LoadedProgram imageBytes elf slot after :=
    fun _ hFalse => absurd hFalse Bool.false_ne_true
  unfold processLoadUserImageBytes vmmCreateAddressSpace
    pmmAllocPage clearPage
  simp only [ensures_bind_iff, ensures_get_iff,
    ensures_set_iff, ensures_pure_iff]
  rw [ensures_ite_iff]
  constructor
  · intro _
    rw [ensures_pure_iff]
    exact hRefused _
  intro hFrames
  rw [not_or] at hFrames
  have hPlan := holdsPlan_created hRooted hFrames.1 hFrames.2
  split
  · rw [ensures_pure_iff]
    exact hRefused _
  rename_i elf hValid
  have hAccepted := Elf.accepted_of_validate hValid
  rw [ensures_bind_iff, ensures_modify_iff, ensures_bind_iff]
  apply ensures_runLoader
  apply (ensures_loadUserImageSegments hPlan elf
    hAccepted.phnum).mono
  intro loaded m4 hLoaded
  rw [ensures_ite_iff]
  constructor
  · intro _
    rw [ensures_pure_iff]
    exact hRefused _
  intro hDone
  have hSegments :=
    hLoaded (by simpa using hDone)
  unfold vmmMapPageInSpace
  simp only [ensures_bind_iff, ensures_get_iff,
    ensures_set_iff, ensures_pure_iff]
  rw [ensures_ite_iff]
  constructor
  · intro _
    rw [ensures_pure_iff]
    exact hRefused _
  intro hMapped
  have hImage :=
    hSegments.of_iff fun number flags bytes =>
      (or_iff_right id).symm
  apply (ensures_prepare_loaded
    (hImage.mapStack (by simpa using hMapped)) slot pid name
    cwd).mono
  intro ok machine hProgram hOk
  exact ⟨elf, hValid, hProgram hOk⟩

end Userspace

end Whirliscope
