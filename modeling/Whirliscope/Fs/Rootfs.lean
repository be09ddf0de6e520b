import Whirliscope.Fs.Ext2.BlockFormat
import Whirliscope.Fs.Ext2.Mounting
import Whirliscope.Fs.Ext2.Results

/-
  The root file system on a block device.

  The whole image is read into memory at the mount, and a
  sync writes it back. The callbacks of a device are a
  parameter; the contents of the device are the medium behind
  the writeback context.

  Key definitions include:
    * `BlockDevice`, `rootfsWriteback`
    * `tryMountDevice`
    * `Rooted`

  Main theorem:
    * `rootfs_synced`
-/

------------------------------------------------------------
-- Block Devices
------------------------------------------------------------

namespace Whirliscope

namespace Rootfs

open ByteMemory FaultProgram
open Ext2 (Ext2M State Writeback)

/-
  The fields of `struct block_device` that are read. A read
  callback is given the first sector, the buffer, the number
  of sectors and the contents of the device, and yields the
  buffer. A write callback yields the contents.
-/
structure BlockDevice where
  sectorSize : Nat
  sectorCount : Nat
  writable : Bool
  read : Option (Nat → Bytes → Nat → Bytes → Bool × Bytes)
  write : Option (Nat → Bytes → Nat → Bytes → Bool × Bytes)

/- A range of sectors that the device does not have. -/
def BlockDevice.refuses
    (device : BlockDevice)
    (lba sectorCount : Nat) : Bool :=
  decide (sectorCount = 0) || decide (lba > device.sectorCount) ||
    decide (sectorCount > device.sectorCount - lba)

/- `block_read`. -/
def blockRead
    (device : BlockDevice)
    (contents : Bytes)
    (lba : Nat)
    (buffer : Bytes)
    (sectorCount : Nat) : Bool × Bytes :=
  match device.read with
  | none => (false, buffer)
  | some read =>
      if device.refuses lba sectorCount then
        (false, buffer)
      else
        read lba buffer sectorCount contents

/- `block_write`. -/
def blockWrite
    (device : BlockDevice)
    (lba : Nat)
    (buffer : Bytes)
    (sectorCount : Nat)
    (contents : Bytes) : Bool × Bytes :=
  match device.write with
  | none => (false, contents)
  | some write =>
      if !device.writable || device.refuses lba sectorCount then
        (false, contents)
      else
        write lba buffer sectorCount contents

/-
  A write callback that returns true has stored exactly the
  given sectors. It never stores other sectors and never
  reads behind the given bytes.
-/
structure BlockDevice.WritesSectors
    (device : BlockDevice) : Prop where
  stores :
    ∀ write, device.write = some write →
      ∀ lba buffer sectorCount contents,
        (write lba buffer sectorCount contents).1 = true →
          (write lba buffer sectorCount contents).2 =
            ByteMemory.write contents
              (lba * device.sectorSize)
              (sectorCount * device.sectorSize) buffer
  within :
    ∀ write, device.write = some write →
      ∀ lba buffer sectorCount contents address,
        address < lba * device.sectorSize ∨
            (lba + sectorCount) * device.sectorSize ≤
              address →
          (write lba buffer sectorCount contents).2 address =
            contents address
  reads :
    ∀ write, device.write = some write →
      ∀ lba buffer other sectorCount contents,
        (∀ i, i < sectorCount * device.sectorSize →
          other i = buffer i) →
        write lba other sectorCount contents =
          write lba buffer sectorCount contents

end Rootfs

end Whirliscope

------------------------------------------------------------
-- Mounting a Device
------------------------------------------------------------

namespace Whirliscope

namespace Rootfs

open ByteMemory FaultProgram
open Ext2 (Ext2M State Writeback)

/- `ROOTFS_LABEL`. -/
def rootfsLabel : List UInt8 :=
  "WHIRLROOT".toUTF8.toList

/- `ROOTFS_MAX_BYTES`. -/
def rootfsMaxBytes : Nat := 64 * 1024 * 1024

/- `rootfs_writeback`, for a mounted device. -/
def rootfsWriteback
    (device : BlockDevice)
    (sectorCount : Nat) : Writeback :=
  fun image imageSize contents =>
    let bytes := wrap 64 (sectorCount * device.sectorSize)
    if imageSize = 0 then
      (false, contents)
    else if imageSize > bytes then
      (false, contents)
    else
      blockWrite device 0 image sectorCount contents

/- The fields that `validate_candidate` reads. -/
def probeMagic (probe : Bytes) := getLE probe (1024 + 56) 2
def probeLogBlockSize (probe : Bytes) :=
  getLE probe (1024 + 24) 4
def probeBlocksCount (probe : Bytes) :=
  getLE probe (1024 + 4) 4
def probeLabel (probe : Bytes) :=
  (List.range rootfsLabel.length).map fun i =>
    probe (1024 + 120 + i)

/-
  `validate_candidate`: the bytes and the sectors of the file
  system. `stack` is what the probe buffer starts with.
-/
def validateCandidate
    (device : BlockDevice)
    (contents stack : Bytes) : Option (Nat × Nat) := do
  if device.sectorSize ≠ 512 ∨ device.sectorCount < 4 then
    none
  let (ok, probe) := blockRead device contents 0 stack 4
  if !ok then none
  if probeMagic probe ≠ Ext2.superMagic then none
  if probeLogBlockSize probe > 2 ∨
      probeBlocksCount probe = 0 then
    none
  if probeLabel probe ≠ rootfsLabel then none
  let blockSize := 1024 * 2 ^ probeLogBlockSize probe
  let bytes := wrap 64 (probeBlocksCount probe * blockSize)
  if bytes = 0 ∨ bytes > rootfsMaxBytes then none
  let sectors :=
    (bytes + device.sectorSize - 1) / device.sectorSize
  if sectors > device.sectorCount then none
  return (sectors * device.sectorSize, sectors)

/-
  `try_mount_device`. `kmalloc` yields a buffer of the given
  size, with whatever it holds, or nothing.
-/
def tryMountDevice
    (device : BlockDevice)
    (kmalloc : Nat → Option Bytes) : Ext2M Bool := do
  let s ← get
  match validateCandidate device s.medium s.stackBytes with
  | none => return false
  | some (fsBytes, fsSectors) =>
      match kmalloc fsBytes with
      | none => return false
      | some buffer =>
          let (ok, image) :=
            blockRead device s.medium 0 buffer fsSectors
          if !ok then return false
          Ext2.ext2MountWithWriteback (some image) fsBytes
            (some (rootfsWriteback device fsSectors))

/- The sectors of a candidate and what they are checked for. -/
theorem validateCandidate_facts
    {device : BlockDevice}
    {contents stack : Bytes}
    {fsBytes fsSectors : Nat}
    (hValid :
      validateCandidate device contents stack =
        some (fsBytes, fsSectors)) :
    device.sectorSize = 512 ∧ fsBytes = fsSectors * 512 ∧
      0 < fsSectors ∧ fsSectors * 512 < 2 ^ 64 := by
  unfold validateCandidate at hValid
  dsimp only [bind, Option.bind, pure] at hValid
  split_ifs at hValid with hGeometry _ _ _ _ hBytes
  have hSector : device.sectorSize = 512 := by
    by_contra hOther
    exact hGeometry (.inl hOther)
  injection hValid with hPair
  injection hPair with hFsBytes hFsSectors
  rw [hSector] at hFsBytes hFsSectors
  unfold rootfsMaxBytes at hBytes
  refine ⟨hSector, ?_, ?_, ?_⟩
  · rw [← hFsBytes, hFsSectors]
  · omega
  · omega

end Rootfs

end Whirliscope

------------------------------------------------------------
-- Writing Back
------------------------------------------------------------

namespace Whirliscope

namespace Rootfs

open ByteMemory FaultProgram
open Ext2 (Ext2M State Writeback)

/-
  A file system on the first sectors of a device. Behind them
  the device holds what it held before.
-/
structure Rooted
    (device : BlockDevice)
    (sectors : Nat)
    (before : Bytes)
    (s : State) : Prop where
  size : s.fsSize = sectors * 512
  writeback :
    s.writeback = some (rootfsWriteback device sectors)
  beyond :
    ∀ address, sectors * 512 ≤ address →
      s.medium address = before address

/- The sectors of the file system hold the image. -/
def Synced
    (sectors : Nat)
    (s : State) : Prop :=
  ∀ i, i < sectors * 512 → s.medium i = s.image i

section

variable {device : BlockDevice}
variable {sectors : Nat} {before : Bytes}

/- The outcome of a transfer to the first sectors. -/
structure Transferred
    (sectors : Nat)
    (image contents : Bytes)
    (written : Bool × Bytes) : Prop where
  beyond :
    ∀ address, sectors * 512 ≤ address →
      written.2 address = contents address
  stored :
    written.1 = true →
      ∀ i, i < sectors * 512 → written.2 i = image i

theorem transferred_refused
    (sectors : Nat)
    (image contents : Bytes) :
    Transferred sectors image contents (false, contents) where
  beyond := fun _ _ => rfl
  stored := fun hNever => absurd hNever Bool.false_ne_true

theorem rootfsWriteback_transferred
    (hWrites : device.WritesSectors)
    (hSector : device.sectorSize = 512)
    (sectors : Nat)
    (image contents : Bytes)
    (imageSize : Nat) :
    Transferred sectors image contents
      (rootfsWriteback device sectors image imageSize
        contents) := by
  have hRefused := transferred_refused sectors image contents
  unfold rootfsWriteback
  dsimp only
  split_ifs
  · exact hRefused
  · exact hRefused
  unfold blockWrite
  split
  · exact hRefused
  rename_i write hWrite
  split_ifs
  · exact hRefused
  constructor
  · intro address hAddress
    apply hWrites.within write hWrite
    rw [hSector, Nat.zero_add]
    exact .inr hAddress
  · intro hStored i hi
    rw [hWrites.stores write hWrite _ _ _ _ hStored, hSector,
      Nat.zero_mul, write_of_mem (Nat.zero_le i) (by omega),
      Nat.sub_zero]

/- The transfer reads no byte behind the image. -/
theorem rootfsWriteback_congr
    (hWrites : device.WritesSectors)
    (hSector : device.sectorSize = 512)
    {sectors : Nat}
    {image other : Bytes}
    (hSame : ∀ i, i < sectors * 512 → other i = image i)
    (imageSize : Nat)
    (contents : Bytes) :
    rootfsWriteback device sectors other imageSize contents =
      rootfsWriteback device sectors image imageSize
        contents := by
  unfold rootfsWriteback blockWrite
  cases hWrite : device.write with
  | none => rfl
  | some write =>
      have hTransfer :
          write 0 other sectors contents =
            write 0 image sectors contents := by
        apply hWrites.reads write hWrite
        rw [hSector]
        exact hSame
      simp only [hTransfer]

theorem rooted_stable
    (hWrites : device.WritesSectors)
    (hSector : device.sectorSize = 512) :
    Ext2.Stable (Rooted device sectors before)
      (Synced sectors) where
  image := fun _ _ hRooted =>
    ⟨hRooted.size, hRooted.writeback, hRooted.beyond⟩
  sync := by
    intro s hRooted
    unfold Ext2.ext2Sync
    rw [ensures_bind_iff, ensures_get_iff, ensures_ite_iff]
    constructor
    · intro _
      rw [ensures_pure_iff]
      exact ⟨hRooted, fun hNever =>
        absurd hNever Bool.false_ne_true⟩
    · intro _
      simp only [hRooted.writeback, ensures_bind_iff,
        ensures_set_iff, ensures_pure_iff]
      have hTransfer :=
        rootfsWriteback_transferred hWrites hSector sectors
          s.image s.medium s.fsSize
      refine ⟨⟨hRooted.size, rfl, ?_⟩, hTransfer.stored⟩
      intro address hAddress
      rw [← hRooted.beyond address hAddress]
      exact hTransfer.beyond address hAddress

/- A mounted device is rooted. -/
theorem ensures_tryMountDevice
    (device : BlockDevice)
    (kmalloc : Nat → Option Bytes)
    (s : State) :
    Ensures (fun _ => False) (tryMountDevice device kmalloc) s
      fun mounted final =>
        mounted = true →
          ∃ sectors,
            validateCandidate device s.medium s.stackBytes =
                some (sectors * 512, sectors) ∧
              Rooted device sectors s.medium final := by
  unfold tryMountDevice
  rw [ensures_bind_iff, ensures_get_iff]
  split
  · rw [ensures_pure_iff]
    exact fun hNever => absurd hNever Bool.false_ne_true
  rename_i fsBytes fsSectors hValid
  split
  · rw [ensures_pure_iff]
    exact fun hNever => absurd hNever Bool.false_ne_true
  rename_i buffer _
  rw [ensures_ite_iff]
  constructor
  · intro _
    rw [ensures_pure_iff]
    exact fun hNever => absurd hNever Bool.false_ne_true
  intro _
  rcases validateCandidate_facts hValid with ⟨_, hBytes, _, _⟩
  apply (Ext2.ensures_mountInternal _ _ _ _).mono
  intro mounted final hOutcome hMounted
  refine ⟨fsSectors, by rw [hValid, hBytes], ?_⟩
  have hFailed : ¬ mounted = false := by
    rw [hMounted]
    exact fun hNever => absurd hNever.symm Bool.false_ne_true
  unfold Ext2.MountOutcome at hOutcome
  dsimp only at hOutcome
  split_ifs at hOutcome
  · exact absurd hOutcome.1 hFailed
  · exact absurd hOutcome.1 hFailed
  · rw [hOutcome.2]
    exact ⟨hBytes, rfl, fun _ _ => rfl⟩
  · exact absurd hOutcome.1 hFailed

/-
  On a mounted device, after any operations: the sectors
  behind the file system are as before the mount, a transfer
  depends on no byte behind the buffer of the image, and after
  every operation that succeeds the device holds the image.
-/
theorem rootfs_synced
    {device : BlockDevice}
    (hWrites : device.WritesSectors)
    {kmalloc : Nat → Option Bytes}
    {start mounted : State}
    (hMount :
      Returns (tryMountDevice device kmalloc) start true
        mounted)
    {calls : List Ext2.Call}
    {replies : List Ext2.Reply}
    {s : State}
    (hRun :
      Returns (Ext2.runCalls calls) mounted replies s) :
    ∃ sectors,
      validateCandidate device start.medium
          start.stackBytes =
        some (sectors * 512, sectors) ∧
      s.fsSize = sectors * 512 ∧
      (∀ address, sectors * 512 ≤ address →
        s.medium address = start.medium address) ∧
      (∃ writeback, s.writeback = some writeback ∧
        ∀ image,
          (∀ i, i < sectors * 512 → image i = s.image i) →
            writeback image s.fsSize s.medium =
              writeback s.image s.fsSize s.medium) ∧
      ∀ call : Ext2.Call, call.changesImage = true →
        ∀ result final,
          Returns call.run s (.code result) final →
          0 ≤ result →
          final.fsSize = sectors * 512 ∧
            ∀ i, i < sectors * 512 →
              final.medium i = final.image i := by
  rcases (ensures_tryMountDevice device kmalloc
      start).of_returns hMount rfl with
    ⟨sectors, hValid, hRooted⟩
  have hSector := (validateCandidate_facts hValid).1
  have hStable : Ext2.Stable
      (Rooted device sectors start.medium) (Synced sectors) :=
    rooted_stable hWrites hSector
  have hLast : Rooted device sectors start.medium s :=
    (hStable.keeps_runCalls calls mounted hRooted).of_returns
      hRun
  refine ⟨sectors, hValid, hLast.size, hLast.beyond,
    ⟨_, hLast.writeback, ?_⟩, ?_⟩
  · intro image hSame
    exact rootfsWriteback_congr hWrites hSector hSame _ _
  · intro call hChanges result final hReturns hNonneg
    rcases (hStable.ensures_call call hLast).of_returns
        hReturns with
      ⟨hFinal, hSuccess⟩
    exact ⟨hFinal.size, hSuccess hChanges result rfl hNonneg⟩

end

/- A device that stores and returns sectors. -/
def sampleDevice : BlockDevice where
  sectorSize := 512
  sectorCount := 64
  writable := true
  read := some fun lba buffer sectorCount contents =>
    (true,
      write buffer 0 (sectorCount * 512)
        (slice contents (lba * 512)))
  write := some fun lba buffer sectorCount contents =>
    (true,
      write contents (lba * 512) (sectorCount * 512) buffer)

theorem sampleDevice_writes :
    sampleDevice.WritesSectors where
  stores := by
    rintro _ ⟨rfl⟩ lba buffer sectorCount contents _
    rfl
  within := by
    rintro _ ⟨rfl⟩ lba buffer sectorCount contents address
      hOutside
    apply write_of_not_mem
    rw [← Nat.add_mul]
    exact hOutside
  reads := by
    rintro _ ⟨rfl⟩ lba buffer other sectorCount contents hSame
    exact congrArg (Prod.mk true) (ByteMemory.write_congr hSame)

/- The device before the mount, with a labelled image. -/
def sampleStart : State :=
  { Ext2.emptyState with
    medium :=
      putLE Ext2.sampleImage 1144 9 0x544f4f524c52494857 }

def sampleBuffer : Nat → Option Bytes :=
  fun _ => some zeros

def sampleMounted : State :=
  finalOr sampleStart
    ((tryMountDevice sampleDevice sampleBuffer).run sampleStart)

theorem sampleMounted_returns :
    Returns (tryMountDevice sampleDevice sampleBuffer)
      sampleStart true sampleMounted :=
  returns_finalOr sampleStart (by decide +kernel)

/- Write one byte to `/f`. -/
def sampleWrite : Ext2.Call :=
  .writeFile (some Ext2.samplePath) (some zeros) 1 0

/- After the byte is written, the device holds the image. -/
theorem sampleMounted_synced :
    ∃ final,
      Returns sampleWrite.run sampleMounted (.code 1) final ∧
        ∀ i, i < 32 * 512 → final.medium i = final.image i := by
  have hWritten :
      Returns (Ext2.ext2WriteFile (some Ext2.samplePath)
          (some zeros) 1 0) sampleMounted 1
        (finalOr sampleMounted
          ((Ext2.ext2WriteFile (some Ext2.samplePath)
            (some zeros) 1 0).run sampleMounted)) :=
    returns_finalOr sampleMounted (by decide +kernel)
  have hCall : Returns sampleWrite.run sampleMounted (.code 1)
      _ :=
    (returns_bind_iff _ _ _ _ _).mpr ⟨1, _, hWritten, rfl⟩
  refine ⟨_, hCall, ?_⟩
  have hRun : Returns (Ext2.runCalls []) sampleMounted []
      sampleMounted := rfl
  rcases rootfs_synced sampleDevice_writes
      sampleMounted_returns hRun with
    ⟨sectors, hValid, _, _, _, hSync⟩
  have hSectors :
      (validateCandidate sampleDevice sampleStart.medium
        sampleStart.stackBytes).map Prod.snd = some 32 := by
    decide +kernel
  rw [hValid] at hSectors
  have hCount : sectors = 32 := by simpa using hSectors
  rw [← hCount]
  exact (hSync sampleWrite rfl 1 _ hCall (by decide)).2

end Rootfs

end Whirliscope
