import Whirliscope.Library.PortIO
import Whirliscope.Library.ByteMemory

/-
  The table of block devices.

  A device brings the programs that transfer its sectors. What
  the table hands out to a caller is checked against the size
  of the device before a transfer starts.

  Key definitions include:
    * `BlockDevice`, `blockRegister`
    * `blockRead`, `blockWrite`
-/

------------------------------------------------------------
-- The Table
------------------------------------------------------------

namespace Whirliscope

namespace Drivers

open ByteMemory FaultProgram PortIO

/- `BLOCK_MAX_DEVICES` and `BLOCK_DEVICE_NAME_SIZE`. -/
def blockMaxDevices : Nat := 8
def blockDeviceNameSize : Nat := 32

/-
  `struct block_device`. A read is given the first sector, the
  buffer and the number of sectors, and yields the buffer.
  `driver_data` is part of the two programs.
-/
structure BlockDevice (δ : Type) where
  name : List UInt8
  sectorSize : Nat
  sectorCount : Nat
  writable : Bool
  read :
    Option (Nat → Bytes → Nat → PortProgram δ (Bool × Bytes))
  write : Option (Nat → Bytes → Nat → PortProgram δ Bool)

section

variable {δ : Type}

/- `block_first_writable`. -/
def blockFirstWritable
    (devices : List (BlockDevice δ)) :
    Option (BlockDevice δ) :=
  devices.find? fun device => device.writable

/- A range of sectors that a device does not have. -/
def BlockDevice.refuses
    (device : BlockDevice δ)
    (lba sectorCount : Nat) : Bool :=
  sectorCount = 0 ∨ lba > device.sectorCount ∨
    sectorCount > device.sectorCount - lba

/- `block_read`, with the buffer after it. -/
def blockRead
    (device : Option (BlockDevice δ))
    (lba : Nat)
    (buffer : Option Bytes)
    (sectorCount : Nat) :
    PortProgram δ (Bool × Option Bytes) :=
  match device, buffer with
  | some device, some bytes =>
      match device.read with
      | none => return (false, buffer)
      | some read =>
          if device.refuses lba sectorCount then
            return (false, buffer)
          else do
            let (ok, after) ← read lba bytes sectorCount
            return (ok, some after)
  | _, _ => return (false, buffer)

/- `block_write`. -/
def blockWrite
    (device : Option (BlockDevice δ))
    (lba : Nat)
    (buffer : Option Bytes)
    (sectorCount : Nat) : PortProgram δ Bool :=
  match device, buffer with
  | some device, some bytes =>
      match device.write with
      | none => return false
      | some write =>
          if !device.writable ||
              device.refuses lba sectorCount then
            return false
          else
            write lba bytes sectorCount
  | _, _ => return false

variable {stops : Empty → Prop} {device : BlockDevice δ}
variable {lba sectorCount : Nat} {machine : Machine δ}

/- The ranges of sectors that a device has. -/
theorem BlockDevice.refuses_eq_true_iff
    (device : BlockDevice δ)
    (lba sectorCount : Nat) :
    device.refuses lba sectorCount = true ↔
      ¬ (0 < sectorCount ∧
        lba + sectorCount ≤ device.sectorCount) := by
  unfold refuses
  rw [decide_eq_true_iff]
  omega

/- A transfer is refused, or is the transfer of the driver. -/
theorem ensures_blockRead
    {read :
      Nat → Bytes → Nat → PortProgram δ (Bool × Bytes)}
    (hRead : device.read = some read)
    (bytes : Bytes)
    {post : Bool × Option Bytes → Machine δ → Prop}
    (hRefused :
      ¬ (0 < sectorCount ∧
        lba + sectorCount ≤ device.sectorCount) →
          post (false, some bytes) machine)
    (hTransfer :
      0 < sectorCount ∧
          lba + sectorCount ≤ device.sectorCount →
        Ensures stops (read lba bytes sectorCount) machine
          fun result => post (result.1, some result.2)) :
    Ensures stops
      (blockRead (some device) lba (some bytes) sectorCount)
      machine post := by
  unfold blockRead
  dsimp only
  rw [hRead]
  dsimp only
  rw [ensures_ite_iff, ensures_pure_iff,
    device.refuses_eq_true_iff lba sectorCount]
  refine ⟨hRefused, fun hInside => ?_⟩
  rw [ensures_bind_iff]
  apply (hTransfer (not_not.mp hInside)).mono
  intro result final hPost
  rw [ensures_pure_iff]
  exact hPost

theorem ensures_blockWrite
    {write : Nat → Bytes → Nat → PortProgram δ Bool}
    (hWrite : device.write = some write)
    (hWritable : device.writable = true)
    (bytes : Bytes)
    {post : Bool → Machine δ → Prop}
    (hRefused :
      ¬ (0 < sectorCount ∧
        lba + sectorCount ≤ device.sectorCount) →
          post false machine)
    (hTransfer :
      0 < sectorCount ∧
          lba + sectorCount ≤ device.sectorCount →
        Ensures stops (write lba bytes sectorCount) machine
          post) :
    Ensures stops
      (blockWrite (some device) lba (some bytes) sectorCount)
      machine post := by
  unfold blockWrite
  dsimp only
  rw [hWrite, hWritable]
  dsimp only
  rw [Bool.not_true, Bool.false_or, ensures_ite_iff,
    ensures_pure_iff, device.refuses_eq_true_iff lba sectorCount]
  exact ⟨hRefused, fun hInside =>
    hTransfer (not_not.mp hInside)⟩

end

end Drivers

end Whirliscope
