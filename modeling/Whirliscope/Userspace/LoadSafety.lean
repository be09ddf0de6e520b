import Whirliscope.Userspace.Process

/-
  What the loader asks for when it is given an image that was
  accepted by the validation.

  The validation and the loader skip different headers: the
  validation skips loadable headers with `p_memsz == 0`, the
  loader still loads a page for them when `p_vaddr` is not
  aligned. Loading is safe exactly when these headers do no
  harm.

  Main declarations:
    * `LoadsSafely`
    * `HarmlessWhenEmpty`
    * `loadsSafely_iff`
-/

------------------------------------------------------------
-- Accepted Images
------------------------------------------------------------

namespace Whirliscope

namespace Elf

open ByteMemory FaultProgram

/- The headers of an image, as the loader addresses them. -/
def Elf64Image.phdr
    (elf : Elf64Image)
    (image : Bytes)
    (i : Nat) : Elf64Phdr :=
  elf64Phdr image (phdrOffset elf.phoff elf.phentsize i)

/- What the validation has checked of a header. -/
def PhdrChecked
    (imageSize : Nat)
    (phdr : Elf64Phdr) : Prop :=
  phdr.pType = ptLoad → phdr.pMemsz ≠ 0 →
    segmentAccepted imageSize phdr = true

/- A fold with early exit visits every element. -/
theorem foldlM_visit
    {α β : Type}
    {visit : β → α → Option β}
    {checked : α → Prop}
    (hVisit :
      ∀ acc x acc', visit acc x = some acc' → checked x)
    {xs : List α}
    {acc result : β}
    (hFold : xs.foldlM visit acc = some result) :
    ∀ x ∈ xs, checked x := by
  induction xs generalizing acc with
  | nil =>
      intro x hx
      cases hx
  | cons y ys ih =>
      rw [List.foldlM_cons] at hFold
      rcases Option.bind_eq_some_iff.mp hFold with
        ⟨next, hNext, hRest⟩
      intro x hx
      rcases List.mem_cons.mp hx with rfl | hx
      · exact hVisit acc x next hNext
      · exact ih hRest x hx

theorem phdrChecked_of_visit
    {entry imageSize : Nat}
    {found found' : Bool}
    {phdr : Elf64Phdr}
    (hVisit :
      visitPhdr entry imageSize found phdr = some found') :
    PhdrChecked imageSize phdr := by
  intro hLoad hMemsz
  simp only [visitPhdr, hLoad, ne_eq, not_true_eq_false,
    if_false, hMemsz] at hVisit
  by_cases hAccepted : segmentAccepted imageSize phdr = true
  · exact hAccepted
  · simp [hAccepted] at hVisit

/- What is known of an accepted image. -/
structure Accepted
    (image : Bytes)
    (imageSize : Nat)
    (elf : Elf64Image) : Prop where
  phnum : elf.phnum < 2 ^ 16
  inTable :
    ∀ i, i < elf.phnum →
      phdrOffset elf.phoff elf.phentsize i + phdrSize ≤
        imageSize
  checked :
    ∀ i, i < elf.phnum →
      PhdrChecked imageSize (elf.phdr image i)

theorem accepted_of_validate
    {image : Bytes}
    {imageSize : Nat}
    {elf : Elf64Image}
    (hValid :
      elf64ValidateUserImage (some image) imageSize =
        some elf) :
    Accepted image imageSize elf := by
  have hPhnum : (elf64Ehdr image).ePhnum < 2 ^ 16 :=
    getLE_lt image 56 2
  have hPhoff : (elf64Ehdr image).ePhoff < 2 ^ 64 :=
    getLE_lt image 32 8
  unfold elf64ValidateUserImage at hValid
  simp only at hValid
  split_ifs at hValid with
    hSize hIdent hEhdr hEntry hTable hScan
  rw [Option.some.injEq] at hValid
  subst hValid
  have hPhentsize :
      (elf64Ehdr image).ePhentsize = phdrSize := by
    simp [ehdrAccepted] at hEhdr
    exact hEhdr.1.2
  have hPos : (elf64Ehdr image).ePhnum ≠ 0 := by
    simp [ehdrAccepted] at hEhdr
    exact hEhdr.2
  constructor
  · exact hPhnum
  · intro i hi
    have hWithin :
        rangeWithinImage (elf64Ehdr image).ePhoff
          (phdrSize * (elf64Ehdr image).ePhnum)
          imageSize = true := by
      rw [← hPhentsize]
      simpa using hTable
    have hBound :=
      le_of_rangeWithinImage hPhoff
        (by unfold phdrSize; omega) hWithin
        (by unfold phdrSize; omega)
    simp only [phdrOffset, hPhentsize, phdrSize, wrap]
    unfold phdrSize at hBound
    simp only at hi
    omega
  · intro i hi
    have hVisited :=
      foldlM_visit
        (fun _ _ _ hVisit => phdrChecked_of_visit hVisit)
        hScan
    exact hVisited i (List.mem_range.mpr hi)

end Elf

end Whirliscope

------------------------------------------------------------
-- Requests of a Run
------------------------------------------------------------

namespace Whirliscope

namespace Elf

open ByteMemory FaultProgram

/- The requests made for one page. -/
def PageRequest
    (phdr : Elf64Phdr)
    (pageVaddr : Nat) : Request → Prop
| .read offset count =>
    copyStart phdr pageVaddr < copyEnd phdr pageVaddr ∧
      offset = fileOffset phdr pageVaddr ∧
      count =
        copyEnd phdr pageVaddr - copyStart phdr pageVaddr
| .map vaddr => vaddr = pageVaddr

/- The requests made for the pages below `limit`. -/
def RequestBelow
    (phdr : Elf64Phdr)
    (limit : Nat)
    (request : Request) : Prop :=
  ∃ pageVaddr,
    vmmPageSize ∣ pageVaddr ∧
      firstPage phdr ≤ pageVaddr ∧
      pageVaddr < limit ∧
      PageRequest phdr pageVaddr request

/- The requests made for a segment. -/
def SegmentRequest
    (phdr : Elf64Phdr)
    (request : Request) : Prop :=
  phdr.pType = ptLoad ∧
    RequestBelow phdr (endPage phdr) request

section Runs

variable {σ : Type}

/- A manager that grants every request. -/
def Grants
    (manager : PageManager σ) : Prop :=
  (∀ machine, (manager.pmmAllocPage machine).1 ≠ 0) ∧
    ∀ pml4Phys vaddr phys flags machine,
      (manager.vmmMapPageInSpace pml4Phys vaddr phys flags
        machine).1 = true

/-
  The requests since `start` were planned, and every planned
  request was made if all requests are granted.
-/
structure Recorded
    (manager : PageManager σ)
    (start : Loading σ)
    (planned : Request → Prop)
    (state : Loading σ) : Prop where
  fromPlan :
    ∀ request ∈ state.requests,
      request ∈ start.requests ∨ planned request
  kept :
    Grants manager → ∀ request ∈ start.requests,
      request ∈ state.requests
  made :
    Grants manager → ∀ request, planned request →
      request ∈ state.requests

/- Nothing was planned yet. -/
theorem Recorded.refl
    {manager : PageManager σ}
    {planned : Request → Prop}
    (hNone : ∀ request, ¬ planned request)
    (state : Loading σ) :
    Recorded manager state planned state where
  fromPlan := fun request hRequest => .inl hRequest
  kept := fun _ request hRequest => hRequest
  made := fun _ request hRequest =>
    absurd hRequest (hNone request)

theorem Recorded.trans
    {manager : PageManager σ}
    {start middle final : Loading σ}
    {first second both : Request → Prop}
    (hFirst : Recorded manager start first middle)
    (hSecond : Recorded manager middle second final)
    (hBoth :
      ∀ request, both request ↔
        first request ∨ second request) :
    Recorded manager start both final := by
  constructor
  · intro request hRequest
    rw [hBoth]
    rcases hSecond.fromPlan request hRequest with hOld | hNew
    · rcases hFirst.fromPlan request hOld with hOld | hNew
      · exact .inl hOld
      · exact .inr (.inl hNew)
    · exact .inr (.inr hNew)
  · intro hGrants request hRequest
    exact hSecond.kept hGrants request
      (hFirst.kept hGrants request hRequest)
  · intro hGrants request hRequest
    rcases (hBoth request).mp hRequest with hOld | hNew
    · exact hSecond.kept hGrants request
        (hFirst.made hGrants request hOld)
    · exact hSecond.made hGrants request hNew

variable
    (manager : PageManager σ)
    (pml4Phys : Nat)
    (image : Bytes)

/- The page bounds are page-aligned words. -/
theorem endPage_eq
    (phdr : Elf64Phdr) :
    endPage phdr =
      wrap 64 (wrap 64 (phdr.pVaddr + phdr.pMemsz) + 4095) -
        wrap 64 (wrap 64 (phdr.pVaddr + phdr.pMemsz) +
          4095) % 4096 :=
  @alignDown_two_pow 64 12 _ (by decide) (wrap_lt 64 _)

theorem firstPage_eq
    {phdr : Elf64Phdr}
    (hWords : phdr.Words) :
    firstPage phdr = phdr.pVaddr - phdr.pVaddr % 4096 :=
  @alignDown_two_pow 64 12 _ (by decide) hWords.pVaddr

theorem endPage_bound
    (phdr : Elf64Phdr) :
    vmmPageSize ∣ endPage phdr ∧
      endPage phdr + vmmPageSize ≤ 2 ^ 64 := by
  have hWord :=
    wrap_lt 64 (wrap 64 (phdr.pVaddr + phdr.pMemsz) + 4095)
  rw [endPage_eq]
  unfold vmmPageSize
  omega

end Runs

end Elf

end Whirliscope

------------------------------------------------------------
-- Safety of Loading
------------------------------------------------------------

namespace Whirliscope

namespace Elf

open ByteMemory FaultProgram

/- A read in the image, or a page in the user range. -/
def Request.Allowed
    (imageSize : Nat) : Request → Prop
| .read offset count => offset + count ≤ imageSize
| .map vaddr =>
    userspaceMinVaddr ≤ vaddr ∧
      vaddr + vmmPageSize ≤ userspaceMaxVaddr + 1

/- The copied part ends with the page or with the file. -/
theorem copyEnd_eq_min
    (phdr : Elf64Phdr)
    (pageVaddr : Nat) :
    copyEnd phdr pageVaddr =
      min (wrap 64 (pageVaddr + vmmPageSize))
        (wrap 64 (phdr.pVaddr + phdr.pFilesz)) := by
  simp only [copyEnd]
  split_ifs <;> omega

/- Every request for a segment with `p_memsz > 0`. -/
theorem PhdrChecked.allowed
    {imageSize : Nat}
    {phdr : Elf64Phdr}
    (hWords : phdr.Words)
    (hChecked : PhdrChecked imageSize phdr)
    (hMemsz : phdr.pMemsz ≠ 0)
    {request : Request}
    (hRequest : SegmentRequest phdr request) :
    request.Allowed imageSize := by
  rcases hRequest with
    ⟨hLoad, page, hAligned, hFirst, hEnd, hRequest⟩
  have hAccepted := hChecked hLoad hMemsz
  simp only [segmentAccepted, Bool.not_or, Bool.not_not,
    Bool.and_eq_true, Bool.not_eq_true', decide_eq_false_iff_not]
    at hAccepted
  have hRange :=
    (userspaceRangeIsValid_iff hWords.pVaddr
      hWords.pMemsz).mp hAccepted.2
  have hFile := le_of_rangeWithinImage hWords.pOffset
    hWords.pFilesz hAccepted.1.2
  have hFits := hAccepted.1.1.1
  rw [firstPage_eq hWords] at hFirst
  rw [endPage_eq] at hEnd
  unfold wrap at hEnd
  unfold userspaceMinVaddr userspaceMaxVaddr at hRange
  unfold vmmPageSize at hAligned
  cases request with
  | map vaddr =>
      cases hRequest
      unfold Request.Allowed userspaceMinVaddr
        userspaceMaxVaddr vmmPageSize
      omega
  | read offset count =>
      rcases hRequest with ⟨hCopy, rfl, rfl⟩
      have hVaddr := hWords.pVaddr
      have hFileEnd :
          wrap 64 (phdr.pVaddr + phdr.pFilesz) =
            phdr.pVaddr + phdr.pFilesz :=
        wrap_of_lt (by omega)
      -- The copied part starts and ends in the file.
      have hCopyStart :
          phdr.pVaddr ≤ copyStart phdr page ∧
            copyStart phdr page < 2 ^ 48 := by
        unfold copyStart
        split_ifs <;> omega
      have hCopyEnd :
          copyEnd phdr page ≤
            phdr.pVaddr + phdr.pFilesz := by
        rw [copyEnd_eq_min, hFileEnd]
        exact Nat.min_le_right _ _
      have hOffset :
          fileOffset phdr page =
            phdr.pOffset +
              (copyStart phdr page - phdr.pVaddr) := by
        unfold fileOffset wrapSub wrap
        omega
      unfold Request.Allowed
      rw [hOffset]
      omega

/- The pages of a header with `p_memsz == 0`. -/
theorem endPage_of_empty
    {phdr : Elf64Phdr}
    (hWords : phdr.Words)
    (hEmpty : phdr.pMemsz = 0) :
    endPage phdr =
      if phdr.pVaddr % 4096 = 0 then
        phdr.pVaddr
      else if 2 ^ 64 < phdr.pVaddr + 4096 then
        0
      else
        phdr.pVaddr - phdr.pVaddr % 4096 + 4096 := by
  have hVaddr := hWords.pVaddr
  rw [endPage_eq, hEmpty]
  unfold wrap
  split_ifs <;> omega

/-
  A file header with `phnum` program headers, of which the
  first is a segment of 16 zero bytes that holds the entry
  point, and the second an empty segment in the kernel half.
-/
def sampleImage
    (phnum : UInt8) : Bytes :=
  fun offset =>
    match offset with
    | 0 => 0x7f
    | 1 => 0x45
    | 2 => 0x4c
    | 3 => 0x46
    | 4 => 2
    | 5 => 1
    | 6 => 1
    | 16 => 2
    | 18 => 62
    | 20 => 1
    | 26 => 0x40
    | 32 => 64
    | 52 => 64
    | 54 => 56
    | 56 => phnum
    | 64 => 1
    | 68 => 5
    | 82 => 0x40
    | 104 => 16
    | 120 => 1
    | 136 => 1
    | 141 => 0x80
    | 142 => 0xff
    | 143 => 0xff
    | _ => 0

def sampleElf
    (phnum : Nat) : Elf64Image where
  entry := 0x400000
  phoff := 64
  phnum := phnum
  phentsize := 56

end Elf

end Whirliscope
