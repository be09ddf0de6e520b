import Whirliscope.Fs.Remount
import Whirliscope.Drivers.AtaStore

/-
  The root file system on a drive of the ATA driver.

  The callbacks of the device run the block layer and the
  driver on the ports. On drives that answer in time and can
  store every sector they do what the root file system relies
  on.

  Key definitions include:
    * `ataRootDevice`
    * `Resting`

  Main theorem:
    * `ataRootDevice_keeps`
-/

------------------------------------------------------------
-- A Drive as the Root Device
------------------------------------------------------------

namespace Whirliscope

namespace Rootfs

open ByteMemory FaultProgram PortIO
open Drivers (AtaDevice PioChannel ataBlockDevice
  ataSectorSize)

section

variable {δ : Type}

/-
  The block layer's calls for a drive, as functions of what
  the drive holds. `rest` is the resting channel on which the
  drive holds some bytes, `held` is what the drive holds.
-/
def ataRootDevice
    (ports : Ports δ)
    (device : AtaDevice)
    (sectors : Nat)
    (rest : Bytes → δ)
    (held : δ → Bytes) : BlockDevice where
  sectorSize := ataSectorSize
  sectorCount := sectors
  writable := true
  read := some fun lba buffer sectorCount contents =>
    let (ok, after) :=
      (outcome
        (Drivers.blockRead
          (some (ataBlockDevice ports device sectors)) lba
          (some buffer) sectorCount)
        ⟨rest contents, []⟩).1
    (ok, after.getD buffer)
  write := some fun lba buffer sectorCount contents =>
    let (ok, final) :=
      outcome
        (Drivers.blockWrite
          (some (ataBlockDevice ports device sectors)) lba
          (some buffer) sectorCount)
        ⟨rest contents, []⟩
    (ok, held final.device)

variable {ports : Ports δ} {device : AtaDevice}

/- What a drive of the channel holds. -/
def PioChannel.held
    (pio : PioChannel ports device.channel)
    (state : δ) : Bytes :=
  pio.medium state (device.drive &&& 1)

/- The channel rests, and the drive holds the given bytes. -/
def Resting
    (pio : PioChannel ports device.channel)
    (rest : Bytes → δ) : Prop :=
  ∀ contents,
    pio.phase (rest contents) = .idle ∧
      pio.medium (rest contents) (device.drive &&& 1) =
        contents

variable (pio : PioChannel ports device.channel)
variable {sectors : Nat} {rest : Bytes → δ}

/- What the two callbacks of the drive do. -/
theorem ataRootDevice_read
    (hPrompt : pio.Prompt)
    (hResting : Resting pio rest)
    (hSectors : sectors ≤ 0x10000000)
    (lba : Nat)
    (buffer : Bytes)
    (sectorCount : Nat)
    (contents : Bytes) :
    Ensures (fun _ => False)
      (Drivers.blockRead
        (some (ataBlockDevice ports device sectors)) lba
        (some buffer) sectorCount)
      ⟨rest contents, []⟩
      fun result _ =>
        if 0 < sectorCount ∧ lba + sectorCount ≤ sectors then
          result =
            (true,
              some
                (Drivers.loadSectors contents lba buffer
                  sectorCount))
        else
          result = (false, some buffer) := by
  rcases hResting contents with ⟨hIdle, hHolds⟩
  apply Drivers.ensures_blockRead rfl
  · intro hRefused
    change ¬ (0 < sectorCount ∧ lba + sectorCount ≤ sectors)
      at hRefused
    rw [if_neg hRefused]
  · intro hInside
    change 0 < sectorCount ∧ lba + sectorCount ≤ sectors
      at hInside
    have hLimit : lba + sectorCount ≤ 0x10000000 :=
      Nat.le_trans hInside.2 hSectors
    apply (pio.ensures_ataBlockRead ⟨hIdle, rfl⟩ hLimit
      buffer).mono
    rintro ⟨ok, after⟩ final ⟨hOk, -, hRead⟩
    have hTrue : ok = true := hOk hPrompt
    subst hTrue
    have hAfter := (hRead rfl).2
    dsimp only at hAfter
    rw [if_pos hInside, hAfter, hHolds]

theorem ataRootDevice_write
    (hPrompt : pio.Prompt)
    (hResting : Resting pio rest)
    (hSectors : sectors ≤ 0x10000000)
    (lba : Nat)
    (buffer : Bytes)
    (sectorCount : Nat)
    (contents : Bytes) :
    Ensures (fun _ => False)
      (Drivers.blockWrite
        (some (ataBlockDevice ports device sectors)) lba
        (some buffer) sectorCount)
      ⟨rest contents, []⟩
      fun ok final =>
        if 0 < sectorCount ∧ lba + sectorCount ≤ sectors then
          ok = true ∧
            pio.medium final.device =
              Drivers.storeSectors pio.healthy
                (pio.medium (rest contents))
                (device.drive &&& 1) lba buffer sectorCount
        else
          ok = false ∧ final.device = rest contents := by
  have hIdle := (hResting contents).1
  apply Drivers.ensures_blockWrite rfl rfl
  · intro hRefused
    change ¬ (0 < sectorCount ∧ lba + sectorCount ≤ sectors)
      at hRefused
    rw [if_neg hRefused]
    exact ⟨rfl, rfl⟩
  · intro hInside
    change 0 < sectorCount ∧ lba + sectorCount ≤ sectors
      at hInside
    have hLimit : lba + sectorCount ≤ 0x10000000 :=
      Nat.le_trans hInside.2 hSectors
    apply (pio.ensures_ataBlockWrite ⟨hIdle, rfl⟩ hLimit
      buffer).mono
    rintro ok final ⟨hOk, hWritten⟩
    have hTrue := hOk hPrompt
    subst hTrue
    rw [if_pos rfl] at hWritten
    rw [if_pos hInside]
    exact ⟨rfl, hWritten.2⟩

/- A drive without bad sectors takes over a whole range. -/
theorem storeSectors_eq_write
    {healthy : UInt8 → Nat → Bool}
    {drive : UInt8}
    (hHealthy : ∀ sector, healthy drive sector = true)
    (medium : UInt8 → Bytes)
    (lba : Nat)
    (buffer : Bytes)
    (sectorCount : Nat) :
    Drivers.storeSectors healthy medium drive lba buffer
        sectorCount drive =
      ByteMemory.write (medium drive) (lba * ataSectorSize)
        (sectorCount * ataSectorSize) buffer := by
  have hSize : ataSectorSize = 512 := rfl
  funext address
  unfold Drivers.storeSectors
  dsimp only
  rw [hSize]
  by_cases hInside :
      lba ≤ address / 512 ∧ address / 512 < lba + sectorCount
  · rw [if_pos ⟨rfl, hInside.1, hInside.2, hHealthy _⟩,
      write_of_mem (by omega) (by omega)]
  · rw [if_neg fun hSector =>
        hInside ⟨hSector.2.1, hSector.2.2.1⟩,
      write_of_not_mem (by omega)]

/- The write callback, as a function of what the drive holds. -/
theorem ataRootDevice_stores
    (hPrompt : pio.Prompt)
    (hHealthy :
      ∀ sector,
        pio.healthy (device.drive &&& 1) sector = true)
    (hResting : Resting pio rest)
    (hSectors : sectors ≤ 0x10000000)
    {write : Nat → Bytes → Nat → Bytes → Bool × Bytes}
    (hWrite :
      (ataRootDevice ports device sectors rest
        (PioChannel.held pio)).write = some write)
    (lba : Nat)
    (buffer : Bytes)
    (sectorCount : Nat)
    (contents : Bytes) :
    write lba buffer sectorCount contents =
      if 0 < sectorCount ∧ lba + sectorCount ≤ sectors then
        (true,
          ByteMemory.write contents (lba * ataSectorSize)
            (sectorCount * ataSectorSize) buffer)
      else
        (false, contents) := by
  have hSpec :=
    outcome_spec
      (ataRootDevice_write pio hPrompt hResting hSectors lba
        buffer sectorCount contents)
  have hHolds := (hResting contents).2
  injection hWrite with hWrite
  subst hWrite
  dsimp only
  by_cases hInside :
      0 < sectorCount ∧ lba + sectorCount ≤ sectors
  · rw [if_pos hInside] at hSpec ⊢
    unfold PioChannel.held
    rw [hSpec.1, hSpec.2, storeSectors_eq_write hHealthy,
      hHolds]
  · rw [if_neg hInside] at hSpec ⊢
    unfold PioChannel.held
    rw [hSpec.1, hSpec.2, hHolds]

/- What the root file system relies on. -/
theorem ataRootDevice_keeps
    (hPrompt : pio.Prompt)
    (hHealthy :
      ∀ sector,
        pio.healthy (device.drive &&& 1) sector = true)
    (hResting : Resting pio rest)
    (hSectors : sectors ≤ 0x10000000) :
    (ataRootDevice ports device sectors rest
        (PioChannel.held pio)).WritesSectors ∧
      (ataRootDevice ports device sectors rest
        (PioChannel.held pio)).ReadsSectors := by
  constructor
  · constructor
    · intro write hWrite lba buffer sectorCount contents hOk
      rw [ataRootDevice_stores pio hPrompt hHealthy hResting
        hSectors hWrite] at hOk ⊢
      by_cases hInside :
          0 < sectorCount ∧ lba + sectorCount ≤ sectors
      · rw [if_pos hInside]
        rfl
      · rw [if_neg hInside] at hOk
        cases hOk
    · intro write hWrite lba buffer sectorCount contents
        address hOutside
      rw [ataRootDevice_stores pio hPrompt hHealthy hResting
        hSectors hWrite]
      by_cases hInside :
          0 < sectorCount ∧ lba + sectorCount ≤ sectors
      · rw [if_pos hInside]
        apply write_of_not_mem
        rw [← Nat.add_mul]
        exact hOutside
      · rw [if_neg hInside]
    · intro write hWrite lba buffer other sectorCount contents
        hSame
      have hStored :
          ByteMemory.write contents (lba * ataSectorSize)
              (sectorCount * ataSectorSize) other =
            ByteMemory.write contents (lba * ataSectorSize)
              (sectorCount * ataSectorSize) buffer :=
        ByteMemory.write_congr hSame
      rw [ataRootDevice_stores pio hPrompt hHealthy hResting
          hSectors hWrite,
        ataRootDevice_stores pio hPrompt hHealthy hResting
          hSectors hWrite,
        hStored]
  · intro read hRead lba buffer sectorCount contents hRange
    have hSpec :=
      outcome_spec
        (ataRootDevice_read pio hPrompt hResting hSectors lba
          buffer sectorCount contents)
    have hInside :
        0 < sectorCount ∧ lba + sectorCount ≤ sectors := by
      unfold BlockDevice.refuses at hRange
      simp only [Bool.or_eq_false_iff,
        decide_eq_false_iff_not] at hRange
      change (¬ sectorCount = 0 ∧ ¬ lba > sectors) ∧
        ¬ sectorCount > sectors - lba at hRange
      omega
    rw [if_pos hInside] at hSpec
    injection hRead with hRead
    subst hRead
    have hOk := congrArg Prod.fst hSpec
    have hAfter :=
      congrArg
        (fun result : Bool × Option Bytes =>
          result.2.getD buffer)
        hSpec
    exact Prod.ext hOk hAfter

end

/- The drive of a channel that answers at once. -/
def sampleDrive : AtaDevice where
  channel := Drivers.sampleChannel
  drive := 0

def allHealthy : UInt8 → Nat → Bool :=
  fun _ _ => true

/- A channel whose drives hold the given bytes. -/
def sampleRest
    (contents : Bytes) : Drivers.PioState :=
  { Drivers.sampleDisks with medium := fun _ => contents }

theorem sampleRest_resting :
    Resting
      (Drivers.pioChannel sampleDrive.channel allHealthy)
      sampleRest :=
  fun _ => ⟨rfl, rfl⟩

theorem sampleDrive_keeps :
    (ataRootDevice
        (Drivers.pioPorts sampleDrive.channel allHealthy)
        sampleDrive 64 sampleRest
        (PioChannel.held
          (Drivers.pioChannel sampleDrive.channel
            allHealthy))).WritesSectors ∧
      (ataRootDevice
        (Drivers.pioPorts sampleDrive.channel allHealthy)
        sampleDrive 64 sampleRest
        (PioChannel.held
          (Drivers.pioChannel sampleDrive.channel
            allHealthy))).ReadsSectors :=
  ataRootDevice_keeps
    (Drivers.pioChannel sampleDrive.channel allHealthy)
    (Drivers.pioChannel_prompt sampleDrive.channel allHealthy)
    (fun _ => rfl) sampleRest_resting (by decide)

end Rootfs

end Whirliscope
