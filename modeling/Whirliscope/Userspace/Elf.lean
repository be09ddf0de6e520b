import Whirliscope.Library.ByteMemory

/-
  User address ranges and the validation of ELF images.

  An image is the memory seen from its first byte: an offset
  past the image is a real address, and reading there reads
  whatever the kernel keeps behind (or, after wrapping
  around, before) the image.

  Key definitions include:
    * `userspaceRangeIsValid`
    * `Elf64Ehdr`, `Elf64Phdr`
    * `elf64ValidateUserImage`
-/

------------------------------------------------------------
-- The User Address Range
------------------------------------------------------------

namespace Whirliscope

open ByteMemory

def userspaceMinVaddr : Nat := 0x0000000000001000
def userspaceMaxVaddr : Nat := 0x00007fffffffffff

/- `VMM_PAGE_SIZE`. -/
def vmmPageSize : Nat := 4096

/- `userspace_range_is_valid`. -/
def userspaceRangeIsValid
    (vaddr size : Nat) : Bool :=
  if size = 0 ∨ vaddr < userspaceMinVaddr then
    false
  else
    let last := wrap 64 (vaddr + size - 1)
    if last < vaddr then
      false
    else
      decide (last ≤ userspaceMaxVaddr)

/- A valid range lies in the user range without wrapping. -/
theorem userspaceRangeIsValid_iff
    {vaddr size : Nat}
    (hVaddr : vaddr < 2 ^ 64)
    (hSize : size < 2 ^ 64) :
    userspaceRangeIsValid vaddr size = true ↔
      0 < size ∧ userspaceMinVaddr ≤ vaddr ∧
        vaddr + size ≤ userspaceMaxVaddr + 1 := by
  unfold userspaceRangeIsValid userspaceMaxVaddr
    userspaceMinVaddr
  by_cases hEmpty : size = 0 ∨ vaddr < 4096
  · rw [if_pos hEmpty]
    exact iff_of_false Bool.false_ne_true (by omega)
  · rw [if_neg hEmpty]
    by_cases hWrap : wrap 64 (vaddr + size - 1) < vaddr
    · rw [if_pos hWrap]
      unfold wrap at hWrap
      exact iff_of_false Bool.false_ne_true (by omega)
    · rw [if_neg hWrap, decide_eq_true_iff]
      unfold wrap at hWrap ⊢
      omega

end Whirliscope

------------------------------------------------------------
-- ELF Headers
------------------------------------------------------------

namespace Whirliscope

namespace Elf

open ByteMemory

/- The fields of `struct elf64_ehdr` that are read. -/
structure Elf64Ehdr where
  eIdent : Nat → UInt8
  eType : Nat
  eMachine : Nat
  eVersion : Nat
  eEntry : Nat
  ePhoff : Nat
  eEhsize : Nat
  ePhentsize : Nat
  ePhnum : Nat

/- `sizeof(struct elf64_ehdr)`. -/
def ehdrSize : Nat := 64

def elf64Ehdr
    (image : Bytes) : Elf64Ehdr where
  eIdent := image
  eType := getLE image 16 2
  eMachine := getLE image 18 2
  eVersion := getLE image 20 4
  eEntry := getLE image 24 8
  ePhoff := getLE image 32 8
  eEhsize := getLE image 52 2
  ePhentsize := getLE image 54 2
  ePhnum := getLE image 56 2

/- The fields of `struct elf64_phdr` that are read. -/
structure Elf64Phdr where
  pType : Nat
  pFlags : Nat
  pOffset : Nat
  pVaddr : Nat
  pFilesz : Nat
  pMemsz : Nat
  pAlign : Nat

/- `sizeof(struct elf64_phdr)`. -/
def phdrSize : Nat := 56

/- `ELF64_PT_LOAD`. -/
def ptLoad : Nat := 1

def elf64Phdr
    (image : Bytes)
    (base : Nat) : Elf64Phdr where
  pType := getLE image base 4
  pFlags := getLE image (base + 4) 4
  pOffset := getLE image (base + 8) 8
  pVaddr := getLE image (base + 16) 8
  pFilesz := getLE image (base + 32) 8
  pMemsz := getLE image (base + 40) 8
  pAlign := getLE image (base + 48) 8

/- The offset of a program header from the image. -/
def phdrOffset
    (phoff phentsize index : Nat) : Nat :=
  wrap 64 (phoff + phentsize * index)

/- A header whose fields are machine words. -/
structure Elf64Phdr.Words
    (phdr : Elf64Phdr) : Prop where
  pOffset : phdr.pOffset < 2 ^ 64
  pVaddr : phdr.pVaddr < 2 ^ 64
  pFilesz : phdr.pFilesz < 2 ^ 64
  pMemsz : phdr.pMemsz < 2 ^ 64

theorem elf64Phdr_words
    (image : Bytes)
    (base : Nat) :
    (elf64Phdr image base).Words where
  pOffset := getLE_lt image (base + 8) 8
  pVaddr := getLE_lt image (base + 16) 8
  pFilesz := getLE_lt image (base + 32) 8
  pMemsz := getLE_lt image (base + 40) 8

end Elf

end Whirliscope

------------------------------------------------------------
-- Validation
------------------------------------------------------------

namespace Whirliscope

namespace Elf

open ByteMemory

/- `range_within_image`. -/
def rangeWithinImage
    (offset size imageSize : Nat) : Bool :=
  if size = 0 then
    true
  else
    let last := wrap 64 (offset + size - 1)
    decide (last ≥ offset) && decide (last < imageSize)

/- A nonempty range within the image does not wrap. -/
theorem le_of_rangeWithinImage
    {offset size imageSize : Nat}
    (hOffset : offset < 2 ^ 64)
    (hSize : size < 2 ^ 64)
    (hWithin :
      rangeWithinImage offset size imageSize = true)
    (hPos : 0 < size) :
    offset + size ≤ imageSize ∧
      offset + size ≤ 2 ^ 64 := by
  have hNonempty : size ≠ 0 := by omega
  simp only [rangeWithinImage, hNonempty, if_false,
    Bool.and_eq_true, decide_eq_true_eq] at hWithin
  unfold wrap at hWithin
  omega

/- `struct elf64_image`. -/
structure Elf64Image where
  entry : Nat
  phoff : Nat
  phnum : Nat
  phentsize : Nat
deriving DecidableEq, Repr

/- The identification bytes of a 64-bit little-endian file. -/
def identAccepted
    (ehdr : Elf64Ehdr) : Bool :=
  ehdr.eIdent 0 == 0x7f && ehdr.eIdent 1 == 0x45 &&
    ehdr.eIdent 2 == 0x4c && ehdr.eIdent 3 == 0x46 &&
    ehdr.eIdent 4 == 2 && ehdr.eIdent 5 == 1 &&
    ehdr.eIdent 6 == 1

/- The checks of the other fields of the file header. -/
def ehdrAccepted
    (ehdr : Elf64Ehdr) : Bool :=
  !((ehdr.eType != 2 && ehdr.eType != 3) ||
    ehdr.eMachine != 62 || ehdr.eVersion != 1 ||
    ehdr.eEhsize != ehdrSize ||
    ehdr.ePhentsize != phdrSize || ehdr.ePhnum == 0)

/- The checks of a loadable header with `p_memsz > 0`. -/
def segmentAccepted
    (imageSize : Nat)
    (phdr : Elf64Phdr) : Bool :=
  !(decide (phdr.pMemsz < phdr.pFilesz) ||
    (phdr.pAlign != 0 &&
      decide (phdr.pAlign < vmmPageSize)) ||
    !rangeWithinImage phdr.pOffset phdr.pFilesz imageSize ||
    !userspaceRangeIsValid phdr.pVaddr phdr.pMemsz)

/-
  One pass of the validation loop. The accumulator says
  whether the entry point was found in a segment.
-/
def visitPhdr
    (entry imageSize : Nat)
    (found : Bool)
    (phdr : Elf64Phdr) : Option Bool :=
  if phdr.pType ≠ ptLoad then
    some found
  else if phdr.pMemsz = 0 then
    some found
  else if !segmentAccepted imageSize phdr then
    none
  else
    some (found || (decide (entry ≥ phdr.pVaddr) &&
      decide (entry < wrap 64 (phdr.pVaddr + phdr.pMemsz))))

/- The validation loop; it fails at a refused header. -/
def scanPhdrs
    (image : Bytes)
    (imageSize : Nat)
    (ehdr : Elf64Ehdr) : Option Bool :=
  (List.range ehdr.ePhnum).foldlM
    (fun found i =>
      visitPhdr ehdr.eEntry imageSize found
        (elf64Phdr image
          (phdrOffset ehdr.ePhoff ehdr.ePhentsize i)))
    false

/- `elf64_validate_user_image`, with its out parameter. -/
def elf64ValidateUserImage
    (image : Option Bytes)
    (imageSize : Nat) : Option Elf64Image :=
  match image with
  | none => none
  | some image =>
      let ehdr := elf64Ehdr image
      let phSize := ehdr.ePhentsize * ehdr.ePhnum
      if imageSize < ehdrSize then
        none
      else if !identAccepted ehdr then
        none
      else if !ehdrAccepted ehdr then
        none
      else if !userspaceRangeIsValid ehdr.eEntry 1 then
        none
      else if
          !rangeWithinImage ehdr.ePhoff phSize
            imageSize then
        none
      else if scanPhdrs image imageSize ehdr = some true then
        some
          { entry := ehdr.eEntry
            phoff := ehdr.ePhoff
            phnum := ehdr.ePhnum
            phentsize := ehdr.ePhentsize }
      else
        none

end Elf

end Whirliscope
