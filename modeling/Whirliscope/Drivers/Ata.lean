import Mathlib.Logic.Function.Iterate
import Whirliscope.Library.PortIO
import Whirliscope.Library.ByteMemory

/-
  The driver of the ATA disks, which moves single sectors
  through the data port.

  The devices behind the ports are a parameter. Lines for the
  kernel log are left out.

  Key definitions include:
    * `AtaChannel`, `AtaDevice`
    * `ataReadOne`, `ataWriteOne`
    * `ataBlockRead`, `ataBlockWrite`
-/

------------------------------------------------------------
-- Registers
------------------------------------------------------------

namespace Whirliscope

namespace Drivers

open ByteMemory FaultProgram PortIO

/- `ATA_SECTOR_SIZE` and `ATA_TIMEOUT`. -/
def ataSectorSize : Nat := 512
def ataTimeout : Nat := 1000000

/- `ATA_REG_*`, as offsets from the base of a channel. -/
def ataRegData : Nat := 0
def ataRegSeccount0 : Nat := 2
def ataRegLba0 : Nat := 3
def ataRegLba1 : Nat := 4
def ataRegLba2 : Nat := 5
def ataRegHddevsel : Nat := 6
def ataRegCommand : Nat := 7
def ataRegStatus : Nat := 7

/- `ATA_CMD_*`. -/
def ataCmdReadSectors : UInt8 := 0x20
def ataCmdWriteSectors : UInt8 := 0x30
/- `ATA_SR_*`. -/
def ataSrErr : UInt8 := 0x01
def ataSrDrq : UInt8 := 0x08
def ataSrDf : UInt8 := 0x20
def ataSrBsy : UInt8 := 0x80

/- `struct ata_channel`. -/
structure AtaChannel where
  ioBase : Nat
  controlBase : Nat
  name : String
deriving DecidableEq, Repr

/- The fields of `struct ata_device` that a transfer reads. -/
structure AtaDevice where
  channel : AtaChannel
  drive : UInt8
deriving DecidableEq, Repr

section

variable {δ : Type} (ports : Ports δ) (channel : AtaChannel)

/- `ata_status`. -/
def ataStatus : PortProgram δ UInt8 :=
  inb ports (channel.ioBase + ataRegStatus)

/- `ata_delay`. -/
def ataDelay : PortProgram δ Unit := do
  let _ ← inb ports channel.controlBase
  let _ ← inb ports channel.controlBase
  let _ ← inb ports channel.controlBase
  let _ ← inb ports channel.controlBase

/- One try of `ata_wait_not_busy`. -/
def ataTryNotBusy : PortProgram δ (Option Unit) := do
  let status ← ataStatus ports channel
  return if status &&& ataSrBsy = 0 then some () else none

/- `ata_wait_not_busy`. -/
def ataWaitNotBusy : PortProgram δ Bool := do
  let result ← poll (ataTryNotBusy ports channel) ataTimeout
  return result.isSome

/- A status that shows an error, or that data can be moved. -/
def ataFailed
    (status : UInt8) : Bool :=
  status &&& (ataSrErr ||| ataSrDf) ≠ 0

def ataReady
    (status : UInt8) : Bool :=
  status &&& ataSrBsy = 0 ∧ status &&& ataSrDrq ≠ 0

/- What `ata_wait_drq` makes of a status. -/
def ataDrqAnswer
    (status : UInt8) : Option Bool :=
  if ataFailed status then some false
  else if ataReady status then some true
  else none

/- One try of `ata_wait_drq`. -/
def ataTryDrq : PortProgram δ (Option Bool) := do
  let status ← ataStatus ports channel
  return ataDrqAnswer status

/- `ata_wait_drq`. -/
def ataWaitDrq : PortProgram δ Bool := do
  let result ← poll (ataTryDrq ports channel) ataTimeout
  return result.getD false

/- The byte that selects a drive and the top of an address. -/
def ataLbaSelect
    (drive : UInt8)
    (lba : UInt32) : UInt8 :=
  (0xe0 : UInt8) ||| ((drive &&& 1) <<< 4) |||
    ((lba >>> 24) &&& 0x0f).toUInt8

/- `ata_select_lba28`. -/
def ataSelectLba28
    (drive : UInt8)
    (lba : UInt32)
    (sectors : UInt8) : PortProgram δ Bool := do
  if ← ataWaitNotBusy ports channel then
    outb ports (channel.ioBase + ataRegHddevsel)
      (ataLbaSelect drive lba)
    outb ports (channel.ioBase + ataRegSeccount0) sectors
    outb ports (channel.ioBase + ataRegLba0) lba.toUInt8
    outb ports (channel.ioBase + ataRegLba1)
      (lba >>> 8).toUInt8
    outb ports (channel.ioBase + ataRegLba2)
      (lba >>> 16).toUInt8
    return true
  else
    return false

end

end Drivers

end Whirliscope

------------------------------------------------------------
-- Sectors
------------------------------------------------------------

namespace Whirliscope

namespace Drivers

open ByteMemory FaultProgram PortIO

/- The sixteen-bit words of a sector. -/
def ataSectorWords : Nat :=
  ataSectorSize / 2

/- A word of a buffer, with its low byte first. -/
def wordAt
    (buffer : Bytes)
    (index : Nat) : UInt16 :=
  (buffer (2 * index)).toUInt16 |||
    ((buffer (2 * index + 1)).toUInt16 <<< 8)

/- A buffer after a word is stored. -/
def setWord
    (buffer : Bytes)
    (index : Nat)
    (word : UInt16) : Bytes :=
  Function.update
    (Function.update buffer (2 * index) word.toUInt8)
    (2 * index + 1) (word >>> 8).toUInt8

section

variable {δ : Type} (ports : Ports δ)

/- One word of a read. -/
def ataReadWord
    (channel : AtaChannel)
    (index : Nat)
    (out : Bytes) : PortProgram δ Bytes := do
  let word ← inw ports (channel.ioBase + ataRegData)
  return setWord out index word

/- `ata_read_one`, with the buffer after it. -/
def ataReadOne
    (device : AtaDevice)
    (lba : UInt32)
    (buffer : Bytes) : PortProgram δ (Bool × Bytes) := do
  let channel := device.channel
  if ← ataSelectLba28 ports channel device.drive lba 1 then
    outb ports (channel.ioBase + ataRegCommand)
      ataCmdReadSectors
    if ← ataWaitDrq ports channel then
      let out ←
        upTo (ataReadWord ports channel) ataSectorWords buffer
      ataDelay ports channel
      return (true, out)
    else
      return (false, buffer)
  else
    return (false, buffer)

/- One word of a write. -/
def ataWriteWord
    (channel : AtaChannel)
    (buffer : Bytes)
    (index : Nat)
    (_ : Unit) : PortProgram δ Unit :=
  outw ports (channel.ioBase + ataRegData)
    (wordAt buffer index)

/- `ata_write_one`. -/
def ataWriteOne
    (device : AtaDevice)
    (lba : UInt32)
    (buffer : Bytes) : PortProgram δ Bool := do
  let channel := device.channel
  if ← ataSelectLba28 ports channel device.drive lba 1 then
    outb ports (channel.ioBase + ataRegCommand)
      ataCmdWriteSectors
    if ← ataWaitDrq ports channel then
      upTo (ataWriteWord ports channel buffer) ataSectorWords
        ()
      ataDelay ports channel
      return true
    else
      return false
  else
    return false

/- What the loop of `ata_block_read` does for a sector. -/
def ataReadSector
    (device : AtaDevice)
    (lba : Nat)
    (index : Nat)
    (out : Bytes) : PortProgram δ (Bool × Bytes) := do
  let (ok, sector) ←
    ataReadOne ports device (UInt32.ofNat (lba + index))
      (slice out (index * ataSectorSize))
  return (ok,
    write out (index * ataSectorSize) ataSectorSize sector)

/- The sectors that 28 bits cannot number. -/
def ataOutside
    (lba sectorCount : Nat) : Bool :=
  wrap 64 (lba + sectorCount) > 0x10000000

/- `ata_block_read`, with the buffer after it. -/
def ataBlockRead
    (device : Option AtaDevice)
    (lba : Nat)
    (buffer : Bytes)
    (sectorCount : Nat) :
    PortProgram δ (Bool × Bytes) :=
  match device with
  | none => return (false, buffer)
  | some device =>
      if ataOutside lba sectorCount then
        return (false, buffer)
      else
        allUpTo (ataReadSector ports device lba) 0 sectorCount
          buffer

/- What the loop of `ata_block_write` does for a sector. -/
def ataWriteSector
    (device : AtaDevice)
    (lba : Nat)
    (buffer : Bytes)
    (index : Nat)
    (_ : Unit) : PortProgram δ (Bool × Unit) := do
  let ok ←
    ataWriteOne ports device (UInt32.ofNat (lba + index))
      (slice buffer (index * ataSectorSize))
  return (ok, ())

/- `ata_block_write`. -/
def ataBlockWrite
    (device : Option AtaDevice)
    (lba : Nat)
    (buffer : Bytes)
    (sectorCount : Nat) : PortProgram δ Bool :=
  match device with
  | none => return false
  | some device =>
      if ataOutside lba sectorCount then
        return false
      else do
        let (ok, _) ←
          allUpTo (ataWriteSector ports device lba buffer) 0
            sectorCount ()
        return ok

end

end Drivers

end Whirliscope

------------------------------------------------------------
-- Waiting
------------------------------------------------------------

namespace Whirliscope

namespace Drivers

open ByteMemory FaultProgram PortIO

/- A fact about the devices that a read of a port keeps. -/
def KeptBy
    {δ : Type}
    (ports : Ports δ)
    (port : Nat)
    (inv : δ → Prop) : Prop :=
  ∀ device, inv device → inv (ports.inByte port device).2

/- The states that differ in the devices only. -/
def Silent
    {δ : Type}
    (inv : δ → Prop)
    (sent : List Output)
    (machine : Machine δ) : Prop :=
  inv machine.device ∧ machine.sent = sent

section

variable {δ : Type} {stops : Empty → Prop}
variable {ports : Ports δ} {channel : AtaChannel}
variable {inv : δ → Prop} {sent : List Output}
variable {machine : Machine δ}

theorem ensures_ataStatus
    (hSilent : Silent inv sent machine)
    {post : UInt8 → Machine δ → Prop}
    (hPost :
      ∀ device, inv device →
        post
          (ports.inByte (channel.ioBase + ataRegStatus)
            device).1
          ⟨(ports.inByte (channel.ioBase + ataRegStatus)
            device).2, sent⟩) :
    Ensures stops (ataStatus ports channel) machine post := by
  rcases machine with ⟨device, before⟩
  rcases hSilent with ⟨hInv, rfl⟩
  unfold ataStatus
  rw [ensures_inb_iff]
  exact hPost device hInv

/- The delay reads the control port only. -/
theorem ensures_ataDelay
    (hKept : KeptBy ports channel.controlBase inv)
    (hSilent : Silent inv sent machine) :
    Ensures stops (ataDelay ports channel) machine
      fun _ final => Silent inv sent final := by
  rcases machine with ⟨device, before⟩
  rcases hSilent with ⟨hInv, rfl⟩
  unfold ataDelay
  simp only [ensures_bind_iff, ensures_inb_iff,
    ensures_pure_iff]
  exact ⟨hKept _ (hKept _ (hKept _ (hKept _ hInv))), rfl⟩

theorem ensures_ataWaitNotBusy
    (hKept :
      KeptBy ports (channel.ioBase + ataRegStatus) inv)
    (hSilent : Silent inv sent machine) :
    Ensures stops (ataWaitNotBusy ports channel) machine
      fun _ final => Silent inv sent final := by
  unfold ataWaitNotBusy
  rw [ensures_bind_iff]
  apply (ensures_poll (Silent inv sent)
    (fun _ => Silent inv sent) ?_ ataTimeout hSilent).mono
  · intro result final hFinal
    rw [ensures_pure_iff]
    cases result <;> exact hFinal
  intro state hState
  unfold ataTryNotBusy
  rw [ensures_bind_iff]
  apply ensures_ataStatus hState
  intro device hInv
  rw [ensures_pure_iff]
  split <;> exact ⟨hKept device hInv, rfl⟩

/- When the wait ends well, a status showed that it may. -/
theorem ensures_ataWaitDrq
    (hKept :
      KeptBy ports (channel.ioBase + ataRegStatus) inv)
    (ready : δ → Prop)
    (hReady :
      ∀ device, inv device →
        ataDrqAnswer
            (ports.inByte (channel.ioBase + ataRegStatus)
              device).1 =
          some true →
        ready
          (ports.inByte (channel.ioBase + ataRegStatus)
            device).2)
    (hSilent : Silent inv sent machine) :
    Ensures stops (ataWaitDrq ports channel) machine
      fun ok final =>
        Silent inv sent final ∧
          (ok = true → ready final.device) := by
  unfold ataWaitDrq
  rw [ensures_bind_iff]
  apply (ensures_poll (Silent inv sent)
    (fun ok final =>
      Silent inv sent final ∧
        (ok = true → ready final.device))
    ?_ ataTimeout hSilent).mono
  · intro result final hFinal
    rw [ensures_pure_iff]
    cases result with
    | none =>
        exact ⟨hFinal, fun hNever => Bool.noConfusion hNever⟩
    | some ok => exact hFinal
  intro state hState
  unfold ataTryDrq
  rw [ensures_bind_iff]
  apply ensures_ataStatus hState
  intro device hInv
  rw [ensures_pure_iff]
  have hAfter := hKept device hInv
  cases hAnswer :
      ataDrqAnswer
        (ports.inByte (channel.ioBase + ataRegStatus)
          device).1 with
  | none => exact ⟨hAfter, rfl⟩
  | some ok =>
      refine ⟨⟨hAfter, rfl⟩, fun hOk => ?_⟩
      subst hOk
      exact hReady device hInv hAnswer

/- The devices after some reads of the status. -/
def polled
    (ports : Ports δ)
    (channel : AtaChannel)
    (polls : Nat)
    (device : δ) : δ :=
  (fun state =>
    (ports.inByte (channel.ioBase + ataRegStatus) state).2)^[
      polls] device

/- The status that the next read shows. -/
def statusAfter
    (ports : Ports δ)
    (channel : AtaChannel)
    (polls : Nat)
    (device : δ) : UInt8 :=
  (ports.inByte (channel.ioBase + ataRegStatus)
    (polled ports channel polls device)).1

theorem polled_succ
    (ports : Ports δ)
    (channel : AtaChannel)
    (polls : Nat)
    (device : δ) :
    polled ports channel (polls + 1) device =
      (ports.inByte (channel.ioBase + ataRegStatus)
        (polled ports channel polls device)).2 :=
  Function.iterate_succ_apply' _ _ _

/- The wait ends when the drive is free in time. -/
theorem ensures_ataWaitNotBusy_of_free
    {polls : Nat}
    (hPolls : polls < ataTimeout)
    (hFree :
      statusAfter ports channel polls machine.device &&&
          ataSrBsy =
        0) :
    Ensures stops (ataWaitNotBusy ports channel) machine
      fun ok _ => ok = true := by
  unfold ataWaitNotBusy
  rw [ensures_bind_iff]
  apply (ensures_poll_settled
    (fun done state =>
      state.device = polled ports channel done machine.device)
    (fun _ _ => True) ?_
    (by omega : polls < 0 + ataTimeout) (Nat.zero_le polls)
    rfl).mono
  · rintro result final ⟨value, rfl, -⟩
    rw [ensures_pure_iff]
    rfl
  rintro done ⟨state, before⟩ hDone hState
  dsimp only at hState
  unfold ataTryNotBusy ataStatus
  rw [ensures_bind_iff, ensures_inb_iff, ensures_pure_iff]
  split
  · next hNone =>
      split at hNone
      · cases hNone
      · next hBusy =>
          refine ⟨?_, ?_⟩
          · refine Nat.lt_of_le_of_ne hDone fun hLast => ?_
            rw [hState, hLast] at hBusy
            exact hBusy hFree
          · rw [polled_succ, ← hState]
  · trivial

/- So does the wait for data. -/
theorem ensures_ataWaitDrq_of_ready
    {polls : Nat}
    (hPolls : polls < ataTimeout)
    (hReady :
      ataDrqAnswer
          (statusAfter ports channel polls machine.device) =
        some true)
    (hEarlier :
      ∀ earlier < polls,
        ataDrqAnswer
            (statusAfter ports channel earlier
              machine.device) =
          none) :
    Ensures stops (ataWaitDrq ports channel) machine
      fun ok _ => ok = true := by
  unfold ataWaitDrq
  rw [ensures_bind_iff]
  apply (ensures_poll_settled
    (fun done state =>
      state.device = polled ports channel done machine.device)
    (fun ok _ => ok = true) ?_
    (by omega : polls < 0 + ataTimeout) (Nat.zero_le polls)
    rfl).mono
  · rintro result final ⟨value, rfl, hValue⟩
    rw [ensures_pure_iff]
    exact hValue
  rintro done ⟨state, before⟩ hDone hState
  dsimp only at hState
  unfold ataTryDrq ataStatus
  rw [ensures_bind_iff, ensures_inb_iff, ensures_pure_iff,
    hState]
  rcases Nat.lt_or_eq_of_le hDone with hLess | hLast
  · have hNone := hEarlier done hLess
    unfold statusAfter at hNone
    rw [hNone]
    exact ⟨hLess, (polled_succ _ _ _ _).symm⟩
  · unfold statusAfter at hReady
    rw [hLast, hReady]

end

end Drivers

end Whirliscope
