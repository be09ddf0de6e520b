import Whirliscope.Userspace.LoadedSpace

/-
  What a program sees of its image.

  The pages of a segment show the file part of the segment,
  and zeros around it. The flags of the segment decide what
  the program may do with them.

  Key definitions include:
    * `ShowsImage`

  Main theorem:
    * `load_shows_image`
-/

------------------------------------------------------------
-- The Bytes of a Segment
------------------------------------------------------------

namespace Whirliscope

namespace Elf

open ByteMemory

/- What the validation promises of a segment with bytes. -/
structure UserSegment
    (phdr : Elf64Phdr) : Prop where
  words : phdr.Words
  load : phdr.pType = ptLoad
  filesz_le : phdr.pFilesz ≤ phdr.pMemsz
  inside : phdr.pVaddr + phdr.pMemsz ≤ 2 ^ 47
  file :
    0 < phdr.pFilesz →
      phdr.pOffset + phdr.pFilesz ≤ 2 ^ 64

theorem PhdrChecked.userSegment
    {imageSize : Nat}
    {phdr : Elf64Phdr}
    (hWords : phdr.Words)
    (hChecked : PhdrChecked imageSize phdr)
    (hLoad : phdr.pType = ptLoad)
    (hMemsz : phdr.pMemsz ≠ 0) :
    UserSegment phdr := by
  have hAccepted := hChecked hLoad hMemsz
  simp only [segmentAccepted, Bool.not_or, Bool.not_not,
    Bool.and_eq_true, Bool.not_eq_true',
    decide_eq_false_iff_not] at hAccepted
  have hRange :=
    (userspaceRangeIsValid_iff hWords.pVaddr
      hWords.pMemsz).mp hAccepted.2
  have hFile := le_of_rangeWithinImage hWords.pOffset
    hWords.pFilesz hAccepted.1.2
  refine
    { words := hWords
      load := hLoad
      filesz_le := Nat.le_of_not_lt hAccepted.1.1.1
      inside := hRange.2.2
      file := fun hPos => (hFile hPos).2 }

section Segment

variable {phdr : Elf64Phdr}

/- The last page of a segment ends in the user half. -/
theorem UserSegment.endPage_eq
    (hSegment : UserSegment phdr) :
    endPage phdr =
      (phdr.pVaddr + phdr.pMemsz + 4095) / 4096 * 4096 := by
  have hInside := hSegment.inside
  rw [Elf.endPage_eq]
  unfold wrap
  omega

/- A byte of a page of the segment. -/
theorem UserSegment.segmentBytes_apply
    (hSegment : UserSegment phdr)
    (image : Bytes)
    {page i : Nat}
    (hAligned : vmmPageSize ∣ page)
    (hAbove : firstPage phdr ≤ page)
    (hBelow : page < endPage phdr)
    (hi : i < 4096) :
    segmentBytes image phdr page i =
      if phdr.pVaddr ≤ page + i ∧
          page + i < phdr.pVaddr + phdr.pFilesz then
        image (phdr.pOffset + (page + i - phdr.pVaddr))
      else 0 := by
  have hWords := hSegment.words
  have hOffsetWord := hWords.pOffset
  have hFits := hSegment.filesz_le
  have hInside := hSegment.inside
  have hFile := hSegment.file
  have hEnd := hSegment.endPage_eq
  have hPageWord : page < 2 ^ 47 := by
    unfold vmmPageSize at hAligned
    omega
  have hPart :=
    (copy_inside hWords hAligned hAbove (by omega)).1
  have hCopyStart :
      page ≤ copyStart phdr page ∧
        phdr.pVaddr ≤ copyStart phdr page ∧
        (copyStart phdr page = page ∨
          copyStart phdr page = phdr.pVaddr) := by
    unfold copyStart
    split_ifs <;> omega
  have hCopyEnd :
      copyEnd phdr page ≤ page + 4096 ∧
        copyEnd phdr page ≤ phdr.pVaddr + phdr.pFilesz ∧
        (copyEnd phdr page = page + 4096 ∨
          copyEnd phdr page =
            phdr.pVaddr + phdr.pFilesz) := by
    rw [copyEnd_eq_min, wrap_of_lt, wrap_of_lt]
    · unfold vmmPageSize
      omega
    · omega
    · unfold vmmPageSize
      omega
  have hFirst := firstPage_eq hWords
  unfold segmentBytes write
  rw [hPart]
  by_cases hIn :
      phdr.pVaddr ≤ page + i ∧
        page + i < phdr.pVaddr + phdr.pFilesz
  · have hEnds := hFile (by omega)
    have hOffset :
        fileOffset phdr page =
          phdr.pOffset +
            (copyStart phdr page - phdr.pVaddr) := by
      unfold fileOffset wrapSub wrap
      omega
    rw [if_pos hIn, if_pos (by omega), hOffset]
    apply congrArg image
    unfold wrap
    omega
  · rw [if_neg hIn, if_neg (by omega)]
    rfl

end Segment

end Elf

end Whirliscope

------------------------------------------------------------
-- What the Program Sees
------------------------------------------------------------

namespace Whirliscope

namespace Userspace

open ByteMemory FaultProgram Vmm Syscall
open Elf (Elf64Image Elf64Phdr)

/- An address of the pages of a segment. -/
def InPages
    (phdr : Elf64Phdr)
    (virtualAddress : Nat) : Prop :=
  Elf.firstPage phdr ≤ virtualAddress ∧
    virtualAddress < Elf.endPage phdr

/- An address of the stack page. -/
def InStack
    (virtualAddress : Nat) : Prop :=
  userspaceStackTop - vmmPageSize ≤ virtualAddress ∧
    virtualAddress < userspaceStackTop

/- The headers that are loaded. -/
def IsSegment
    (image : Bytes)
    (elf : Elf64Image)
    (phdr : Elf64Phdr) : Prop :=
  ∃ i, i < elf.phnum ∧ elf.phdr image i = phdr ∧
    phdr.pType = Elf.ptLoad

variable {δ : Type}

/-
  The segments show their part of the image, and zeros around
  it, with the permissions of their flags. The stack shows
  zeros. Nothing else is mapped in the user half, and every
  page has a frame of its own.
-/
structure ShowsImage
    (image : Bytes)
    (elf : Elf64Image)
    (root : Nat)
    (machine : UserMachine δ) : Prop where
  contents :
    ∀ phdr i, IsSegment image elf phdr → i < phdr.pMemsz →
      userByte machine root (phdr.pVaddr + i) =
        some
          (if i < phdr.pFilesz then image (phdr.pOffset + i)
          else 0)
  padding :
    ∀ phdr v, IsSegment image elf phdr → InPages phdr v →
      (v < phdr.pVaddr ∨ phdr.pVaddr + phdr.pMemsz ≤ v) →
        userByte machine root v = some 0
  permissions :
    ∀ phdr v, IsSegment image elf phdr → InPages phdr v →
      UserAccess machine.tables root v ∧
        (WriteAccess machine.tables root v ↔
          phdr.pFlags &&& 2 ≠ 0) ∧
        (ExecAccess machine.tables root v ↔
          phdr.pFlags &&& 1 ≠ 0)
  stack :
    ∀ v, InStack v →
      userByte machine root v = some 0 ∧
        UserAccess machine.tables root v ∧
        WriteAccess machine.tables root v ∧
        ¬ ExecAccess machine.tables root v
  others :
    ∀ v, UserHalf v →
      vmmVirtToPhys machine.tables root v ≠ none →
        InStack v ∨
          ∃ phdr, IsSegment image elf phdr ∧ InPages phdr v
  frames :
    ∀ v v' physical physical', UserHalf v → UserHalf v' →
      vmmVirtToPhys machine.tables root v = some physical →
      vmmVirtToPhys machine.tables root v' =
          some physical' →
      physical / 4096 = physical' / 4096 →
        v / 4096 = v' / 4096

section View

variable {root : Nat} {space : UserSpace} {used : List Nat}
variable {machine : UserMachine δ}
variable {image : Bytes} {elf : Elf64Image}

/- What a planned page shows and permits. -/
theorem Holds.planned
    {plan : Elf.PagePlan}
    (hHolds : Holds root space used machine)
    (hHas : space.Has plan)
    {v flags : Nat}
    {bytes : Bytes}
    (hHalf : UserHalf v)
    (hPlan : plan (v / 4096) flags bytes) :
    userByte machine root v = some (bytes (v % 4096)) ∧
      (UserAccess machine.tables root v ↔
        flags &&& Vmm.vmmUser ≠ 0) ∧
      (WriteAccess machine.tables root v ↔
        flags &&& Vmm.vmmWritable ≠ 0) ∧
      (ExecAccess machine.tables root v ↔
        flags &&& Vmm.vmmNoexec = 0) := by
  have hNumber : v / 4096 < 2 ^ 35 := by
    unfold UserHalf at hHalf
    omega
  rcases (hHas _ flags bytes hNumber).mpr hPlan with
    ⟨physical, hPage⟩
  have hAccess :=
    hHolds.shows.access hHalf (congrArg _ hPage)
      (hHolds.isFrame hPage) (hHolds.owns _ _ hPage).2
  refine ⟨?_, hAccess.2⟩
  rw [hHolds.userByte_eq hHalf, hPage]
  rfl

/- The page of an address of a segment. -/
theorem segment_inPages
    {phdr : Elf64Phdr}
    (hSegment : Elf.UserSegment phdr)
    {v : Nat}
    (hPages : InPages phdr v) :
    UserHalf v ∧ vmmPageSize ∣ v / 4096 * 4096 ∧
      Elf.firstPage phdr ≤ v / 4096 * 4096 ∧
      v / 4096 * 4096 < Elf.endPage phdr ∧
      pageNumber (v / 4096 * 4096) = v / 4096 := by
  have hInside := hSegment.inside
  have hEnd := hSegment.endPage_eq
  have hFirst := Elf.firstPage_eq hSegment.words
  unfold InPages at hPages
  have hHalf : v < 2 ^ 47 := by omega
  refine ⟨hHalf, Nat.dvd_mul_left _ _, by omega, by omega, ?_⟩
  unfold pageNumber
  omega

theorem isSegment_userSegment
    {imageSize : Nat}
    (hAccepted : Elf.Accepted image imageSize elf)
    (hNonempty :
      ∀ phdr, IsSegment image elf phdr → phdr.pMemsz ≠ 0)
    {phdr : Elf64Phdr}
    (hSegment : IsSegment image elf phdr) :
    Elf.UserSegment phdr := by
  have hMemsz := hNonempty phdr hSegment
  rcases hSegment with ⟨i, hi, rfl, hLoad⟩
  exact (hAccepted.checked i hi).userSegment
    (Elf.elf64Phdr_words image _) hLoad hMemsz

/- The plan of a program at an address of a segment. -/
theorem programPage_of_segment
    {phdr : Elf64Phdr}
    (hSegment : IsSegment image elf phdr)
    (hUser : Elf.UserSegment phdr)
    {v : Nat}
    (hPages : InPages phdr v) :
    ProgramPage image elf (v / 4096)
      (Elf.segmentMapFlags phdr)
      (Elf.segmentBytes image phdr (v / 4096 * 4096)) := by
  rcases segment_inPages hUser hPages with
    ⟨-, hAligned, hFirst, hEnd, hNumber⟩
  rcases hSegment with ⟨i, hi, rfl, hLoad⟩
  exact .inl ⟨i, hi, hLoad, v / 4096 * 4096, hAligned, hFirst,
    hEnd, hNumber.symm, rfl, rfl⟩

/- The bytes of the pages of a segment. -/
theorem userByte_of_segment
    (hHolds : Holds root space used machine)
    (hHas : space.Has (ProgramPage image elf))
    {phdr : Elf64Phdr}
    (hSegment : IsSegment image elf phdr)
    (hUser : Elf.UserSegment phdr)
    {v : Nat}
    (hPages : InPages phdr v) :
    userByte machine root v =
      some
        (if phdr.pVaddr ≤ v ∧
            v < phdr.pVaddr + phdr.pFilesz then
          image (phdr.pOffset + (v - phdr.pVaddr))
        else 0) := by
  rcases segment_inPages hUser hPages with
    ⟨hHalf, hAligned, hFirst, hEnd, -⟩
  have hView :=
    hHolds.planned hHas hHalf
      (programPage_of_segment hSegment hUser hPages)
  have hSplit : v / 4096 * 4096 + v % 4096 = v :=
    Nat.div_add_mod' v 4096
  rw [hView.1,
    hUser.segmentBytes_apply image hAligned hFirst hEnd
      (Nat.mod_lt v (by decide)), hSplit]

/- The bytes of a segment lie in its pages. -/
theorem inPages_of_lt
    {phdr : Elf64Phdr}
    (hUser : Elf.UserSegment phdr)
    {i : Nat}
    (hi : i < phdr.pMemsz) :
    InPages phdr (phdr.pVaddr + i) := by
  have hEnd := hUser.endPage_eq
  have hFirst := Elf.firstPage_eq hUser.words
  unfold InPages
  omega

/- The flags that a segment gives to its pages. -/
theorem segmentMapFlags_bits
    (phdr : Elf64Phdr) :
    Elf.segmentMapFlags phdr &&& Vmm.vmmUser ≠ 0 ∧
      (Elf.segmentMapFlags phdr &&& Vmm.vmmWritable ≠ 0 ↔
        phdr.pFlags &&& 2 ≠ 0) ∧
      (Elf.segmentMapFlags phdr &&& Vmm.vmmNoexec = 0 ↔
        phdr.pFlags &&& 1 ≠ 0) := by
  unfold Elf.segmentMapFlags
  by_cases hWrite : phdr.pFlags &&& 2 ≠ 0
  · by_cases hExec : phdr.pFlags &&& 1 = 0
    · rw [if_pos hWrite, if_pos hExec]
      exact ⟨by decide, iff_of_true (by decide) hWrite,
        iff_of_false (by decide) (not_not.mpr hExec)⟩
    · rw [if_pos hWrite, if_neg hExec]
      exact ⟨by decide, iff_of_true (by decide) hWrite,
        iff_of_true (by decide) hExec⟩
  · by_cases hExec : phdr.pFlags &&& 1 = 0
    · rw [if_neg hWrite, if_pos hExec]
      exact ⟨by decide, iff_of_false (by decide) hWrite,
        iff_of_false (by decide) (not_not.mpr hExec)⟩
    · rw [if_neg hWrite, if_neg hExec]
      exact ⟨by decide, iff_of_false (by decide) hWrite,
        iff_of_true (by decide) hExec⟩

/- A space that has the pages of a program shows its image. -/
theorem showsImage_of_holds
    {imageSize : Nat}
    (hAccepted : Elf.Accepted image imageSize elf)
    (hNonempty :
      ∀ phdr, IsSegment image elf phdr → phdr.pMemsz ≠ 0)
    (hHolds : Holds root space used machine)
    (hHas : space.Has (ProgramPage image elf)) :
    ShowsImage image elf root machine := by
  have hUser :
      ∀ phdr, IsSegment image elf phdr →
        Elf.UserSegment phdr :=
    fun phdr hSegment =>
      isSegment_userSegment hAccepted hNonempty hSegment
  refine
    { contents := ?_
      padding := ?_
      permissions := ?_
      stack := ?_
      others := ?_
      frames := ?_ }
  · intro phdr i hSegment hi
    have hPages := inPages_of_lt (hUser phdr hSegment) hi
    rw [userByte_of_segment hHolds hHas hSegment
      (hUser phdr hSegment) hPages, Nat.add_sub_cancel_left]
    simp only [Nat.le_add_right, true_and,
      Nat.add_lt_add_iff_left]
  · intro phdr v hSegment hPages hOutside
    have hFits := (hUser phdr hSegment).filesz_le
    rw [userByte_of_segment hHolds hHas hSegment
      (hUser phdr hSegment) hPages, if_neg (by omega)]
  · intro phdr v hSegment hPages
    have hView :=
      hHolds.planned hHas
        (segment_inPages (hUser phdr hSegment) hPages).1
        (programPage_of_segment hSegment (hUser phdr hSegment)
          hPages)
    have hBits := segmentMapFlags_bits phdr
    exact ⟨hView.2.1.mpr hBits.1,
      hView.2.2.1.trans hBits.2.1,
      hView.2.2.2.trans hBits.2.2⟩
  · intro v hStack
    have hHalf : UserHalf v := by
      unfold InStack userspaceStackTop vmmPageSize at hStack
      unfold UserHalf
      omega
    have hNumber :
        v / 4096 =
          pageNumber (userspaceStackTop - vmmPageSize) := by
      unfold InStack userspaceStackTop vmmPageSize at hStack
      unfold pageNumber userspaceStackTop vmmPageSize
      omega
    have hView :=
      hHolds.planned hHas hHalf (.inr ⟨hNumber, rfl, rfl⟩)
    exact ⟨hView.1, hView.2.1.mpr (by decide),
      hView.2.2.1.mpr (by decide),
      fun hExec => absurd (hView.2.2.2.mp hExec) (by decide)⟩
  · intro v hHalf hMapped
    cases hPage : space (v / 4096) with
    | none =>
        exact absurd (hHolds.translate_none hHalf hPage)
          hMapped
    | some page =>
        have hNumber : v / 4096 < 2 ^ 35 := by
          unfold UserHalf at hHalf
          omega
        rcases (hHas _ _ _ hNumber).mp
            ⟨page.frame.physical, hPage⟩ with
          ⟨i, hi, hLoad, pageVaddr, hAligned, hFirst, hEnd,
            hAt, -⟩ | ⟨hStack, -⟩
        · right
          have hSegment :
              IsSegment image elf (elf.phdr image i) :=
            ⟨i, hi, rfl, hLoad⟩
          refine ⟨_, hSegment, ?_⟩
          have hInside := (hUser _ hSegment).inside
          have hLast := (hUser _ hSegment).endPage_eq
          unfold vmmPageSize at hAligned
          unfold pageNumber at hAt
          unfold InPages
          omega
        · left
          unfold pageNumber userspaceStackTop vmmPageSize
            at hStack
          unfold InStack userspaceStackTop vmmPageSize
          omega
  · intro v v' physical physical' hHalf hHalf' hAt hAt' hSame
    exact hHolds.own_frame hHalf hHalf' hAt hAt' hSame

end View

/-
  A program that is loaded from an image without empty
  segments sees its image.
-/
theorem load_shows_image
    {boot machine : UserMachine δ}
    {slot : Slot}
    {pid : Nat}
    {name cwd : List UInt8}
    {image : Bytes}
    {imageSize : Nat}
    {elf : Elf64Image}
    (hRooted : Rooted boot)
    (hValid :
      Elf.elf64ValidateUserImage (some image) imageSize =
        some elf)
    (hNonempty :
      ∀ phdr, IsSegment image elf phdr → 0 < phdr.pMemsz)
    (hLoads :
      Returns
        (processLoadUserImageBytes slot pid name image
          imageSize cwd)
        boot true machine) :
    ShowsImage image elf
      (machine.rest.processes slot).pml4Phys machine := by
  rcases (ensures_load_holds hRooted slot pid name image
      imageSize cwd).of_returns hLoads rfl with
    ⟨elf', hValid', hProgram⟩
  have hSame : elf' = elf :=
    Option.some.inj (hValid'.symm.trans hValid)
  subst hSame
  rcases hProgram.holds with ⟨space, used, hHolds, hHas⟩
  exact showsImage_of_holds (Elf.accepted_of_validate hValid)
    (fun phdr hSegment =>
      Nat.ne_of_gt (hNonempty phdr hSegment))
    hHolds hHas

/- A machine with an empty root and twelve free frames. -/
def emptyMachine : UserMachine Unit where
  tables := zeros
  pml4 := 0x1000
  memory := zeros
  rest :=
    { processes := fun _ => {}
      nextPid := 1
      scheduler := schedulerInit
      userspaceReady := false
      initProcessReady := false
      free := (List.range 12).map fun k => 0x2000 + 0x1000 * k
      totalPages := 16
      kernelCr3 := 0x1000
      heap := KernelHeap.kheapInit zeros ()
      devices := () }

theorem emptyMachine_rooted :
    Rooted emptyMachine :=
  ⟨[0x1000], (pageTree_iff_forest _ _).mp
    (pageTree_zeros (by decide) (by decide) (by decide)
      (by decide)),
    by decide⟩

/- The machine with the sample image in its second slot. -/
def sampleProgram : UserMachine Unit :=
  finalOr emptyMachine
    ((processLoadUserImageBytes 1 1 [] (Elf.sampleImage 1) 120
      []).run emptyMachine)

theorem sampleProgram_loads :
    Returns
      (processLoadUserImageBytes 1 1 [] (Elf.sampleImage 1)
        120 [])
      emptyMachine true sampleProgram :=
  returns_finalOr emptyMachine (by decide)

/- It sees sixteen zeros at its entry point. -/
theorem sampleProgram_shows_image :
    ShowsImage (Elf.sampleImage 1) (Elf.sampleElf 1)
      (sampleProgram.rest.processes 1).pml4Phys
      sampleProgram := by
  have hNonempty :
      ∀ phdr,
        IsSegment (Elf.sampleImage 1) (Elf.sampleElf 1) phdr →
          0 < phdr.pMemsz := by
    rintro phdr ⟨i, hi, rfl, -⟩
    have hFirst : i = 0 := Nat.lt_one_iff.mp hi
    subst hFirst
    decide
  exact load_shows_image emptyMachine_rooted (by decide)
    hNonempty sampleProgram_loads

end Userspace

end Whirliscope
