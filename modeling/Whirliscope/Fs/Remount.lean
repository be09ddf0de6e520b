import Whirliscope.Fs.Rootfs
import Whirliscope.Fs.Ext2.VolumeCopies

/-
  Mounting a device whose reads succeed. The checks of a mount
  depend on the first bytes of the superblock, and a device
  that passes them is mounted with its own contents.

  Key definitions include:
    * `BlockDevice.ReadsSectors`
    * `HeadersAgree`
    * `Mountable`, `MountedFrom`

  Main theorems:
    * `validateCandidate_eq_some`
    * `ensures_tryMountDevice_image`
-/

------------------------------------------------------------
-- Headers
------------------------------------------------------------

namespace Whirliscope

namespace Rootfs

open ByteMemory FaultProgram
open Ext2 (State superblockOffset superblockSize headerField)

/- The superblocks agree apart from the free counts. -/
def HeadersAgree
    (bytes bytes' : Bytes) : Prop :=
  ∀ i < superblockSize, i < 12 ∨ 20 ≤ i →
    bytes' (superblockOffset + i) = bytes (superblockOffset + i)

section

variable {bytes bytes' : Bytes} {device : BlockDevice}

theorem HeadersAgree.headerField_eq
    (hAgree : HeadersAgree bytes bytes')
    {offset width : Nat}
    (hInside : offset + width ≤ superblockSize)
    (hFixed : offset + width ≤ 12 ∨ 20 ≤ offset) :
    headerField bytes' offset width =
      headerField bytes offset width := by
  apply getLE_congr
  intro i hi
  rw [Nat.add_assoc]
  exact hAgree (offset + i) (by omega) (by omega)

theorem HeadersAgree.trans
    {bytes'' : Bytes}
    (hFirst : HeadersAgree bytes bytes')
    (hSecond : HeadersAgree bytes' bytes'') :
    HeadersAgree bytes bytes'' :=
  fun i hi hFixed =>
    (hSecond i hi hFixed).trans (hFirst i hi hFixed)

theorem HeadersAgree.symm
    (hAgree : HeadersAgree bytes bytes') :
    HeadersAgree bytes' bytes :=
  fun i hi hFixed => (hAgree i hi hFixed).symm

/- Nothing that a mount checks has changed. -/
theorem HeadersAgree.accepted
    (hAgree : HeadersAgree bytes bytes')
    (hAccepted : Ext2.HeaderAccepted bytes) :
    Ext2.HeaderAccepted bytes' := by
  unfold Ext2.HeaderAccepted at *
  rw [hAgree.headerField_eq (by decide) (by decide),
    hAgree.headerField_eq (by decide) (by decide),
    hAgree.headerField_eq (by decide) (by decide),
    hAgree.headerField_eq (by decide) (by decide)]
  exact hAccepted

theorem HeadersAgree.blockSize_eq
    (hAgree : HeadersAgree bytes bytes') :
    Ext2.headerBlockSize bytes' =
      Ext2.headerBlockSize bytes := by
  unfold Ext2.headerBlockSize
  rw [hAgree.headerField_eq (by decide) (by decide)]

theorem HeadersAgree.groupCount_eq
    (hAgree : HeadersAgree bytes bytes') :
    Ext2.headerGroupCount bytes' =
      Ext2.headerGroupCount bytes := by
  unfold Ext2.headerGroupCount
  rw [hAgree.headerField_eq (by decide) (by decide),
    hAgree.headerField_eq (by decide) (by decide)]

theorem HeadersAgree.descriptor
    (hAgree : HeadersAgree bytes bytes')
    {imageSize : Nat}
    (hPresent : ¬ Ext2.DescriptorMissing bytes imageSize) :
    ¬ Ext2.DescriptorMissing bytes' imageSize := by
  unfold Ext2.DescriptorMissing Ext2.firstDescriptorEnd at *
  rw [hAgree.groupCount_eq, hAgree.blockSize_eq]
  exact hPresent

theorem length_rootfsLabel :
    rootfsLabel.length = 9 := by
  decide +kernel

/- What a probe of the device is checked for. -/
theorem HeadersAgree.probe
    (hAgree : HeadersAgree bytes bytes') :
    probeMagic bytes' = probeMagic bytes ∧
      probeLogBlockSize bytes' = probeLogBlockSize bytes ∧
      probeBlocksCount bytes' = probeBlocksCount bytes ∧
      probeLabel bytes' = probeLabel bytes := by
  refine ⟨?_, ?_, ?_, ?_⟩
  · exact hAgree.headerField_eq (by decide) (by decide)
  · exact hAgree.headerField_eq (by decide) (by decide)
  · exact hAgree.headerField_eq (by decide) (by decide)
  · unfold probeLabel
    apply List.map_congr_left
    intro i hi
    rw [List.mem_range, length_rootfsLabel] at hi
    have hOffset : 120 + i < superblockSize := by
      change 120 + i < 136
      omega
    have hByte := hAgree (120 + i) hOffset (.inr (by omega))
    rw [← Nat.add_assoc] at hByte
    exact hByte

/- Two probes with one header are judged alike. -/
theorem validateCandidate_agree
    {contents contents' stack stack' probe probe' : Bytes}
    (hRead :
      blockRead device contents 0 stack 4 = (true, probe))
    (hRead' :
      blockRead device contents' 0 stack' 4 = (true, probe'))
    (hAgree : HeadersAgree probe probe') :
    validateCandidate device contents' stack' =
      validateCandidate device contents stack := by
  rcases hAgree.probe with ⟨hMagic, hLog, hBlocks, hLabel⟩
  unfold validateCandidate
  simp only [hRead, hRead', hMagic, hLog, hBlocks, hLabel]

/- A candidate was probed. -/
theorem exists_probe
    {contents stack : Bytes}
    {candidate : Nat × Nat}
    (hValid :
      validateCandidate device contents stack =
        some candidate) :
    ∃ probe,
      blockRead device contents 0 stack 4 = (true, probe) := by
  unfold validateCandidate at hValid
  dsimp only [bind, Option.bind, pure] at hValid
  cases hRead : blockRead device contents 0 stack 4 with
  | mk ok probe =>
      cases ok with
      | true => exact ⟨probe, rfl⟩
      | false =>
          rw [hRead] at hValid
          simp at hValid

end

end Rootfs

end Whirliscope

------------------------------------------------------------
-- Mounting
------------------------------------------------------------

namespace Whirliscope

namespace Rootfs

open ByteMemory FaultProgram
open Ext2 (Ext2M State AgreeBelow superblockOffset superblockSize)

/-
  A read callback that fills the buffer, and never fails where
  the device has sectors.
-/
def BlockDevice.ReadsSectors
    (device : BlockDevice) : Prop :=
  ∀ read, device.read = some read →
    ∀ lba buffer sectorCount contents,
      device.refuses lba sectorCount = false →
      read lba buffer sectorCount contents =
        (true,
          ByteMemory.write buffer 0
            (sectorCount * device.sectorSize)
            (slice contents (lba * device.sectorSize)))

/- An image of this size passes the checks of a mount. -/
structure Mountable
    (bytes : Bytes)
    (size : Nat) : Prop where
  inside : superblockOffset + superblockSize ≤ size
  accepted : Ext2.HeaderAccepted bytes
  descriptor : ¬ Ext2.DescriptorMissing bytes size

/- The state after a device was mounted. -/
structure MountedFrom
    (device : BlockDevice)
    (s : State)
    (sectors : Nat)
    (final : State) : Prop where
  valid :
    validateCandidate device s.medium s.stackBytes =
      some (sectors * 512, sectors)
  mountable : Mountable s.medium (sectors * 512)
  fsImage : final.fsImage = true
  superblock :
    final.superblock = some Ext2.superblockPointer
  image : AgreeBelow (sectors * 512) s.medium final.image
  fsSize : final.fsSize = sectors * 512
  blockSize :
    final.blockSize = Ext2.headerBlockSize s.medium
  groupCount :
    final.groupCount = Ext2.headerGroupCount s.medium
  writeback :
    final.writeback = some (rootfsWriteback device sectors)
  medium : final.medium = s.medium

section

variable {device : BlockDevice} {bytes bytes' : Bytes}
variable {limit sectors : Nat}

theorem headersAgree_of_agreeBelow
    (hAgree : AgreeBelow limit bytes bytes')
    (hInside : superblockOffset + superblockSize ≤ limit) :
    HeadersAgree bytes bytes' :=
  fun i hi _ => hAgree (superblockOffset + i) (by omega)

theorem Mountable.congr
    (hMountable : Mountable bytes limit)
    (hAgree : HeadersAgree bytes bytes') :
    Mountable bytes' limit where
  inside := hMountable.inside
  accepted := hAgree.accepted hMountable.accepted
  descriptor := hAgree.descriptor hMountable.descriptor

theorem slice_zero_base
    (bytes : Bytes) :
    slice bytes 0 = bytes :=
  funext fun i => congrArg bytes (Nat.zero_add i)

/- A transfer from the first sectors. -/
theorem blockRead_eq
    (hReads : device.ReadsSectors)
    (hSector : device.sectorSize = 512)
    (hCallback : device.read ≠ none)
    (hRange : device.refuses 0 sectors = false)
    (contents buffer : Bytes) :
    blockRead device contents 0 buffer sectors =
      (true, write buffer 0 (sectors * 512) contents) := by
  unfold blockRead
  cases hRead : device.read with
  | none => exact absurd hRead hCallback
  | some read =>
      dsimp only
      rw [if_neg (Bool.eq_false_iff.mp hRange),
        hReads read hRead _ _ _ _ hRange, hSector,
        Nat.zero_mul, slice_zero_base]

theorem read_ne_none_of_blockRead
    {contents buffer after : Bytes}
    {lba count : Nat}
    (hRead :
      blockRead device contents lba buffer count =
        (true, after)) :
    device.read ≠ none := by
  intro hNone
  unfold blockRead at hRead
  rw [hNone] at hRead
  cases hRead

/- The sectors of a candidate are sectors of the device. -/
theorem validateCandidate_inside
    {contents stack : Bytes}
    {fsBytes : Nat}
    (hValid :
      validateCandidate device contents stack =
        some (fsBytes, sectors)) :
    device.refuses 0 sectors = false ∧
      device.refuses 0 4 = false := by
  have hPos := (validateCandidate_facts hValid).2.2.1
  unfold validateCandidate at hValid
  dsimp only [bind, Option.bind, pure] at hValid
  split_ifs at hValid with hGeometry _ _ _ _ _ hFits
  injection hValid with hPair
  injection hPair with _ hSectors
  rw [hSectors] at hFits
  unfold BlockDevice.refuses
  simp only [Bool.or_eq_false_iff, decide_eq_false_iff_not]
  omega

/- What a probe brings in is the start of the device. -/
theorem headersAgree_probe
    (hReads : device.ReadsSectors)
    {contents stack probe : Bytes}
    {candidate : Nat × Nat}
    (hValid :
      validateCandidate device contents stack =
        some candidate)
    (hRead :
      blockRead device contents 0 stack 4 = (true, probe)) :
    HeadersAgree contents probe := by
  have hSector := (validateCandidate_facts hValid).1
  have hInside := (validateCandidate_inside hValid).2
  rw [blockRead_eq hReads hSector
    (read_ne_none_of_blockRead hRead) hInside,
    Prod.mk.injEq] at hRead
  rw [← hRead.2]
  intro i hi _
  apply write_of_mem (Nat.zero_le _)
  have hSize : superblockOffset + superblockSize = 1160 := rfl
  omega

/- A device with the same header is as good a candidate. -/
theorem validateCandidate_eq_some
    (hReads : device.ReadsSectors)
    {contents contents' stack : Bytes}
    {candidate : Nat × Nat}
    (hValid :
      validateCandidate device contents stack =
        some candidate)
    (hAgree : HeadersAgree contents contents')
    (stack' : Bytes) :
    validateCandidate device contents' stack' =
      some candidate := by
  rcases exists_probe hValid with ⟨probe, hRead⟩
  have hSector := (validateCandidate_facts hValid).1
  have hInside := (validateCandidate_inside hValid).2
  have hRead' :=
    blockRead_eq hReads hSector
      (read_ne_none_of_blockRead hRead) hInside contents'
      stack'
  have hProbe := headersAgree_probe hReads hValid hRead
  have hProbe' :
      HeadersAgree contents'
        (write stack' 0 (4 * 512) contents') := by
    intro i hi _
    apply write_of_mem (Nat.zero_le _)
    have hSize :
        superblockOffset + superblockSize = 1160 := rfl
    omega
  rw [← hValid]
  exact validateCandidate_agree hRead hRead'
    ((hProbe.symm.trans hAgree).trans hProbe')

/-
  A mount takes the image from the device, and succeeds on
  every candidate that passes the checks.
-/
theorem ensures_tryMountDevice_image
    (hReads : device.ReadsSectors)
    (kmalloc : Nat → Option Bytes)
    (s : State) :
    Ensures (fun _ => False) (tryMountDevice device kmalloc) s
      fun mounted final =>
        (mounted = true →
          ∃ sectors, MountedFrom device s sectors final) ∧
        ∀ sectors,
          validateCandidate device s.medium s.stackBytes =
              some (sectors * 512, sectors) →
            kmalloc (sectors * 512) ≠ none →
            Mountable s.medium (sectors * 512) →
            mounted = true := by
  unfold tryMountDevice
  rw [ensures_bind_iff, ensures_get_iff]
  split
  · next hInvalid =>
      rw [ensures_pure_iff]
      refine ⟨fun hNever =>
        absurd hNever Bool.false_ne_true, ?_⟩
      intro sectors hValid
      rw [hInvalid] at hValid
      cases hValid
  next fsBytes fsSectors hValid =>
  rcases validateCandidate_facts hValid with
    ⟨hSector, hBytes, -, -⟩
  subst hBytes
  have hOnly :
      ∀ {sectors},
        validateCandidate device s.medium s.stackBytes =
            some (sectors * 512, sectors) →
          sectors = fsSectors := by
    intro sectors hOther
    rw [hValid] at hOther
    injection hOther with hPair
    injection hPair with _ hSame
    exact hSame.symm
  split
  · next hNoBuffer =>
      rw [ensures_pure_iff]
      refine ⟨fun hNever =>
        absurd hNever Bool.false_ne_true, ?_⟩
      intro sectors hOther hBuffer
      rw [hOnly hOther] at hBuffer
      exact absurd hNoBuffer hBuffer
  next buffer _ =>
  rcases exists_probe hValid with ⟨probe, hProbe⟩
  rw [blockRead_eq hReads hSector
    (read_ne_none_of_blockRead hProbe)
    (validateCandidate_inside hValid).1]
  dsimp only
  rw [Bool.not_true, if_neg Bool.false_ne_true]
  have hImage :
      AgreeBelow (fsSectors * 512) s.medium
        (write buffer 0 (fsSectors * 512) s.medium) :=
    fun i hi => write_of_mem (Nat.zero_le i) (by omega)
  apply (Ext2.ensures_mountInternal _ _ _ _).mono
  intro mounted final hOutcome
  unfold Ext2.MountOutcome at hOutcome
  dsimp only at hOutcome
  split_ifs at hOutcome with hShort hHeader hMissing
  · refine ⟨fun hMounted => ?_, fun sectors hOther _ hGood => ?_⟩
    · rw [hOutcome.1] at hMounted
      cases hMounted
    · rw [hOnly hOther] at hGood
      exact absurd hGood.inside (Nat.not_le.mpr hShort)
  all_goals
    have hAgree :=
      headersAgree_of_agreeBelow hImage (Nat.not_lt.mp hShort)
  · refine ⟨fun hMounted => ?_, fun sectors hOther _ hGood => ?_⟩
    · rw [hOutcome.1] at hMounted
      cases hMounted
    · rw [hOnly hOther] at hGood
      exact absurd hMissing (hAgree.descriptor hGood.descriptor)
  · rcases hOutcome with ⟨hMounted, rfl⟩
    refine ⟨fun _ => ⟨fsSectors, ?_⟩, fun _ _ _ _ => hMounted⟩
    have hBack := hAgree.symm
    exact
      { valid := hValid
        mountable :=
          { inside := Nat.not_lt.mp hShort
            accepted := hBack.accepted hHeader
            descriptor := hBack.descriptor hMissing }
        fsImage := rfl
        superblock := rfl
        image := hImage
        fsSize := rfl
        blockSize := hAgree.blockSize_eq
        groupCount := hAgree.groupCount_eq
        writeback := rfl
        medium := rfl }
  · refine ⟨fun hMounted => ?_, fun sectors hOther _ hGood => ?_⟩
    · rw [hOutcome.1] at hMounted
      cases hMounted
    · exact absurd (hAgree.accepted hGood.accepted) hHeader

end

end Rootfs

end Whirliscope
