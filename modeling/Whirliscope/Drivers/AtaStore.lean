import Mathlib.Logic.Function.Iterate
import Whirliscope.Library.ByteStrings
import Whirliscope.Drivers.AtaProbe

/-
  The ATA driver on drives that keep to the protocol of
  transfers through the data port.

  What the drives do is documented outside of this program; it
  is collected in a structure over the ports. A drive may fail
  to store a sector that it took over, which it shows in its
  status only after the last word.

  Key definitions include:
    * `PioChannel`, `Prompt`
    * `storeSectors`, `loadSectors`

  Main theorems:
    * `PioChannel.ensures_ataBlockRead`
    * `PioChannel.ensures_ataBlockWrite`
    * `runDisk_serves`
-/

------------------------------------------------------------
-- Words and Bytes
------------------------------------------------------------

namespace Whirliscope

namespace Drivers

open ByteMemory FaultProgram PortIO

section

variable {buffer source : Bytes} {index : Nat}

theorem wordAt_toNat
    (buffer : Bytes)
    (index : Nat) :
    (wordAt buffer index).toNat =
      (buffer (2 * index)).toNat +
        2 ^ 8 * (buffer (2 * index + 1)).toNat := by
  have hLow := (buffer (2 * index)).toNat_lt
  have hHigh := (buffer (2 * index + 1)).toNat_lt
  unfold wordAt
  rw [UInt16.toNat_or, UInt16.toNat_shiftLeft,
    UInt8.toNat_toUInt16, UInt8.toNat_toUInt16]
  have hShift :
      (buffer (2 * index + 1)).toNat <<<
            (UInt16.toNat 8 % 16) %
          2 ^ 16 =
        2 ^ 8 * (buffer (2 * index + 1)).toNat := by
    change (buffer (2 * index + 1)).toNat <<< 8 % 2 ^ 16 = _
    rw [Nat.shiftLeft_eq]
    omega
  rw [hShift, Nat.or_comm, ← Nat.two_pow_add_eq_or_of_lt hLow]
  omega

/- The bytes of a word are those that it was made of. -/
theorem toUInt8_wordAt
    (buffer : Bytes)
    (index : Nat) :
    (wordAt buffer index).toUInt8 = buffer (2 * index) ∧
      (wordAt buffer index >>> 8).toUInt8 =
        buffer (2 * index + 1) := by
  have hWord := wordAt_toNat buffer index
  have hLow := (buffer (2 * index)).toNat_lt
  have hHigh := (buffer (2 * index + 1)).toNat_lt
  constructor
  · apply UInt8.toNat_inj.mp
    rw [UInt16.toNat_toUInt8, hWord]
    omega
  · apply UInt8.toNat_inj.mp
    rw [UInt16.toNat_toUInt8, UInt16.toNat_shiftRight, hWord]
    change _ >>> 8 % 2 ^ 8 = _
    rw [Nat.shiftRight_eq_div_pow]
    omega

/- Storing the next word of a source. -/
theorem setWord_write
    (buffer source : Bytes)
    (index : Nat) :
    setWord (write buffer 0 (2 * index) source) index
        (wordAt source index) =
      write buffer 0 (2 * (index + 1)) source := by
  rcases toUInt8_wordAt source index with ⟨hLow, hHigh⟩
  funext address
  unfold setWord
  rw [hLow, hHigh]
  by_cases hSecond : address = 2 * index + 1
  · rw [hSecond, Function.update_self,
      write_of_mem (Nat.zero_le _) (by omega)]
    rfl
  rw [Function.update_of_ne hSecond]
  by_cases hFirst : address = 2 * index
  · rw [hFirst, Function.update_self,
      write_of_mem (Nat.zero_le _) (by omega)]
    rfl
  rw [Function.update_of_ne hFirst]
  by_cases hMem : address < 2 * index
  · rw [write_of_mem (Nat.zero_le _) (by omega),
      write_of_mem (Nat.zero_le _) (by omega)]
  · rw [write_of_not_mem (.inr (by omega)),
      write_of_not_mem (.inr (by omega))]

/- The bytes of a list of words. -/
def wordsBytes
    (words : List UInt16) : Bytes :=
  fun i =>
    let word := words.getD (i / 2) 0
    if i % 2 = 0 then word.toUInt8 else (word >>> 8).toUInt8

theorem wordsBytes_wordAt
    (buffer : Bytes)
    {count i : Nat}
    (hInside : i < 2 * count) :
    wordsBytes ((List.range count).map (wordAt buffer)) i =
      buffer i := by
  have hIndex : i / 2 < count := by omega
  rcases toUInt8_wordAt buffer (i / 2) with ⟨hLow, hHigh⟩
  unfold wordsBytes
  rw [List.getD_eq_getElem?_getD, List.getElem?_map,
    List.getElem?_range hIndex]
  dsimp only [Option.map_some, Option.getD_some]
  split
  · rw [hLow]
    congr 1
    omega
  · rw [hHigh]
    congr 1
    omega

end

end Drivers

end Whirliscope

------------------------------------------------------------
-- The Protocol
------------------------------------------------------------

namespace Whirliscope

namespace Drivers

open ByteMemory FaultProgram PortIO

/- What the drives of a channel are doing. -/
inductive PioPhase where
| idle
| sending (drive : UInt8) (lba word : Nat)
| taking (drive : UInt8) (lba : Nat) (words : List UInt16)
| refused

/- A phase in which the data port moves words. -/
def PioPhase.MovesData : PioPhase → Prop
| .sending _ _ _ => True
| .taking _ _ _ => True
| _ => False

/- A phase in which no word was moved yet. -/
def PioPhase.IsFirst : PioPhase → Prop
| .sending _ _ word => word = 0
| .taking _ _ words => words = []
| _ => False

/- The registers that address a sector. -/
def ataAddressRegisters : List Nat :=
  [ataRegHddevsel, ataRegSeccount0, ataRegLba0, ataRegLba1,
    ataRegLba2]

/- A medium after a drive took over the words of a sector. -/
def takeSector
    (healthy : UInt8 → Nat → Bool)
    (medium : UInt8 → Bytes)
    (drive : UInt8)
    (lba : Nat)
    (words : List UInt16) : UInt8 → Bytes :=
  if healthy drive lba then
    Function.update medium drive
      (write (medium drive) (lba * ataSectorSize)
        ataSectorSize (wordsBytes words))
  else
    medium

/-
  The drives of a channel behind some ports, and how they act
  on each access. `healthy` tells which sectors a drive is
  able to store.
-/
structure PioChannel
    {δ : Type}
    (ports : Ports δ)
    (channel : AtaChannel) where
  phase : δ → PioPhase
  bus : δ → AtaBus
  medium : δ → UInt8 → Bytes
  healthy : UInt8 → Nat → Bool
  -- The registers hold what was last sent to them.
  bus_send :
    ∀ device output,
      bus (ports.send device output) =
        (bus device).observe channel output
  -- A status is read without effect, and shows no data that
  -- is not there.
  status :
    ∀ device,
      let answer :=
        ports.inByte (channel.ioBase + ataRegStatus) device
      phase answer.2 = phase device ∧
        medium answer.2 = medium device ∧
        (ataDrqAnswer answer.1 = some true →
          (phase device).MovesData)
  control :
    ∀ device,
      let answer := ports.inByte channel.controlBase device
      phase answer.2 = phase device ∧
        medium answer.2 = medium device
  address :
    ∀ device register value, phase device = .idle →
      register ∈ ataAddressRegisters →
        let after :=
          ports.outByte (channel.ioBase + register) value
            device
        phase after = .idle ∧ medium after = medium device
  -- A command for one sector starts a transfer, or not.
  read :
    ∀ device, phase device = .idle →
      (bus device).select &&& 0x40 ≠ 0 →
      (bus device).seccount0 = 1 →
        let after :=
          ports.outByte (channel.ioBase + ataRegCommand)
            ataCmdReadSectors device
        medium after = medium device ∧
          (phase after =
              .sending (bus device).drive (bus device).lba
                0 ∨
            phase after = .refused)
  write :
    ∀ device, phase device = .idle →
      (bus device).select &&& 0x40 ≠ 0 →
      (bus device).seccount0 = 1 →
        let after :=
          ports.outByte (channel.ioBase + ataRegCommand)
            ataCmdWriteSectors device
        medium after = medium device ∧
          (phase after =
              .taking (bus device).drive (bus device).lba
                [] ∨
            phase after = .refused)
  -- The words of a sector, one after the other.
  send :
    ∀ device drive lba word,
      phase device = .sending drive lba word →
        let answer :=
          ports.inWord (channel.ioBase + ataRegData) device
        answer.1 =
            wordAt
              (slice (medium device drive)
                (lba * ataSectorSize))
              word ∧
          medium answer.2 = medium device ∧
          phase answer.2 =
            if word + 1 = ataSectorWords then .idle
            else .sending drive lba (word + 1)
  take :
    ∀ device drive lba words value,
      phase device = .taking drive lba words →
        let after :=
          ports.outWord (channel.ioBase + ataRegData) value
            device
        if words.length + 1 = ataSectorWords then
          phase after = .idle ∧
            medium after =
              takeSector healthy (medium device) drive lba
                (words ++ [value])
        else
          phase after =
              .taking drive lba (words ++ [value]) ∧
            medium after = medium device

/-
  Drives that answer before the driver gives up: a free drive
  says so, accepts commands, and soon has its data ready.
-/
structure PioChannel.Prompt
    {δ : Type}
    {ports : Ports δ}
    {channel : AtaChannel}
    (pio : PioChannel ports channel) : Prop where
  free :
    ∀ state, pio.phase state = .idle →
      ∃ polls < ataTimeout,
        statusAfter ports channel polls state &&& ataSrBsy = 0
  accepts :
    ∀ state code, pio.phase state = .idle →
      code = ataCmdReadSectors ∨ code = ataCmdWriteSectors →
        pio.phase
            (ports.outByte (channel.ioBase + ataRegCommand)
              code state) ≠
          .refused
  ready :
    ∀ state, (pio.phase state).IsFirst →
      ∃ polls < ataTimeout,
        ataDrqAnswer (statusAfter ports channel polls state) =
            some true ∧
          ∀ earlier < polls,
            ataDrqAnswer
                (statusAfter ports channel earlier state) =
              none

end Drivers

end Whirliscope

------------------------------------------------------------
-- The Start of a Transfer
------------------------------------------------------------

namespace Whirliscope

namespace Drivers

open ByteMemory FaultProgram PortIO

section

variable {δ : Type} {stops : Empty → Prop}
variable {ports : Ports δ} {device : AtaDevice}
variable {machine : Machine δ} {sent : List Output}
variable (pio : PioChannel ports device.channel)

namespace PioChannel

/- No drive is busy with a transfer. -/
def Rests
    (medium : UInt8 → Bytes)
    (state : δ) : Prop :=
  pio.phase state = .idle ∧ pio.medium state = medium

/- A command was accepted, or not. -/
def Starts
    (medium : UInt8 → Bytes)
    (first : PioPhase)
    (state : δ) : Prop :=
  pio.medium state = medium ∧
    (pio.phase state = first ∨ pio.phase state = .refused)

/- The first phase of a transfer of a sector. -/
def firstPhase
    (code drive : UInt8)
    (lba : Nat) : PioPhase :=
  if code = ataCmdReadSectors then .sending drive lba 0
  else .taking drive lba []

theorem bus_sendAll
    (state : δ)
    (outputs : List Output) :
    pio.bus (ports.sendAll state outputs) =
      (pio.bus state).observeAll device.channel outputs := by
  induction outputs generalizing state with
  | nil => rfl
  | cons output outputs ih =>
      unfold Ports.sendAll AtaBus.observeAll at ih ⊢
      rw [List.foldl_cons, List.foldl_cons, ih, pio.bus_send]

theorem rests_address
    {medium : UInt8 → Bytes}
    {state : δ}
    (hRests : pio.Rests medium state)
    (lba : UInt32) :
    pio.Rests medium
      (ports.sendAll state
        (ataAddress device.channel device.drive lba 1)) := by
  have hStep :
      ∀ state register value, pio.Rests medium state →
        register ∈ ataAddressRegisters →
          pio.Rests medium
            (ports.outByte (device.channel.ioBase + register)
              value state) := by
    intro state register value hState hRegister
    have hAfter :=
      pio.address state register value hState.1 hRegister
    exact ⟨hAfter.1, hAfter.2.trans hState.2⟩
  unfold ataAddress Ports.sendAll
  simp only [List.foldl_cons, List.foldl_nil, Ports.send]
  exact hStep _ _ _ (hStep _ _ _ (hStep _ _ _ (hStep _ _ _
    (hStep _ _ _ hRests (by decide)) (by decide))
    (by decide)) (by decide)) (by decide)

/- A request starts a transfer of its sector, or nothing. -/
theorem starts_request
    {medium : UInt8 → Bytes}
    {state : δ}
    (hRests : pio.Rests medium state)
    {code : UInt8}
    (hCode :
      code = ataCmdReadSectors ∨ code = ataCmdWriteSectors)
    {lba : UInt32}
    (hLba : lba.toNat < 2 ^ 28) :
    pio.Starts medium
      (firstPhase code (device.drive &&& 1) lba.toNat)
      (ports.sendAll state (ataRequest device code lba)) := by
  have hAddress := pio.rests_address hRests lba
  have hBus :=
    pio.bus_sendAll state
      (ataAddress device.channel device.drive lba 1)
  have hCommand :=
    command_ataAddress device.channel (pio.bus state) device
      hLba code
  rw [← hBus] at hCommand
  have hDrive := congrArg AtaCommand.drive hCommand
  have hSector := congrArg AtaCommand.lba hCommand
  have hFields := hBus.trans (observe_ataAddress _ _ _ _ _)
  have hLinear := congrArg AtaBus.select hFields
  have hCount := congrArg AtaBus.seccount0 hFields
  dsimp only at hLinear hCount
  have hSelect :=
    (ataLbaSelect_fields device.drive lba).1
  rw [← hLinear] at hSelect
  unfold ataRequest Ports.sendAll at *
  rw [List.foldl_append]
  generalize hMiddle :
      List.foldl ports.send state
        (ataAddress device.channel device.drive lba 1) =
        middle at *
  rcases hCode with rfl | rfl
  · rcases pio.read middle hAddress.1 hSelect hCount with
      ⟨hMedium, hPhase⟩
    refine ⟨hMedium.trans hAddress.2, hPhase.imp_left ?_⟩
    intro hSending
    refine hSending.trans ?_
    rw [firstPhase, if_pos rfl]
    exact congrArg₂ (PioPhase.sending · · 0) hDrive hSector
  · rcases pio.write middle hAddress.1 hSelect hCount with
      ⟨hMedium, hPhase⟩
    refine ⟨hMedium.trans hAddress.2, hPhase.imp_left ?_⟩
    intro hTaking
    refine hTaking.trans ?_
    rw [firstPhase, if_neg (by decide)]
    exact congrArg₂ (PioPhase.taking · · []) hDrive hSector

theorem keptBy_rests
    (medium : UInt8 → Bytes) :
    KeptBy ports (device.channel.ioBase + ataRegStatus)
      (pio.Rests medium) := by
  intro state hState
  have hStatus := pio.status state
  exact ⟨hStatus.1.trans hState.1,
    hStatus.2.1.trans hState.2⟩

theorem keptBy_rests_control
    (medium : UInt8 → Bytes) :
    KeptBy ports device.channel.controlBase
      (pio.Rests medium) := by
  intro state hState
  have hControl := pio.control state
  exact ⟨hControl.1.trans hState.1,
    hControl.2.trans hState.2⟩

theorem keptBy_starts
    (medium : UInt8 → Bytes)
    (first : PioPhase) :
    KeptBy ports (device.channel.ioBase + ataRegStatus)
      (pio.Starts medium first) := by
  intro state hState
  have hStatus := pio.status state
  exact ⟨hStatus.2.1.trans hState.1,
    hState.2.imp hStatus.1.trans hStatus.1.trans⟩

/- A start that succeeds leaves the drive at its sector. -/
theorem ensures_ataStart
    {medium : UInt8 → Bytes}
    (hRests : pio.Rests medium machine.device)
    {code : UInt8}
    (hCode :
      code = ataCmdReadSectors ∨ code = ataCmdWriteSectors)
    {lba : UInt32}
    (hLba : lba.toNat < 2 ^ 28) :
    Ensures stops (ataStart ports device code lba) machine
      fun ok final =>
        pio.medium final.device = medium ∧
          (ok = true →
            pio.phase final.device =
              firstPhase code (device.drive &&& 1)
                lba.toNat) := by
  have hSilent :
      Silent (pio.Rests medium) machine.sent machine :=
    ⟨hRests, rfl⟩
  apply (Drivers.ensures_ataStart (pio.keptBy_rests medium)
    (pio.Starts medium
      (firstPhase code (device.drive &&& 1) lba.toNat))
    (fun state => pio.phase state =
      firstPhase code (device.drive &&& 1) lba.toNat)
    (fun _ hFree => pio.starts_request hFree hCode hLba)
    (pio.keptBy_starts medium _) ?_ hSilent).mono
  · rintro ok final (⟨rfl, hFinal, -⟩ | ⟨⟨hFinal, -⟩, hOk⟩)
    · exact ⟨hFinal.2, fun hNever => Bool.noConfusion hNever⟩
    · exact ⟨hFinal.1, hOk⟩
  intro state hState hAnswer
  have hStatus := pio.status state
  have hMoves := hStatus.2.2 hAnswer
  rw [hStatus.1]
  refine hState.2.resolve_right fun hRefused => ?_
  rw [hRefused] at hMoves
  exact hMoves

theorem firstPhase_isFirst
    (code drive : UInt8)
    (lba : Nat) :
    (firstPhase code drive lba).IsFirst := by
  unfold firstPhase
  split <;> rfl

/- On a prompt drive the start succeeds. -/
theorem ensures_ataStart_prompt
    (hPrompt : pio.Prompt)
    {medium : UInt8 → Bytes}
    (hRests : pio.Rests medium machine.device)
    {code : UInt8}
    (hCode :
      code = ataCmdReadSectors ∨ code = ataCmdWriteSectors)
    {lba : UInt32}
    (hLba : lba.toNat < 2 ^ 28) :
    Ensures stops (ataStart ports device code lba) machine
      fun ok _ => ok = true := by
  have hSilent :
      Silent (pio.Rests medium) machine.sent machine :=
    ⟨hRests, rfl⟩
  rcases hPrompt.free machine.device hRests.1 with
    ⟨polls, hPolls, hFree⟩
  have hWait :
      Ensures stops (ataWaitNotBusy ports device.channel)
        machine fun ok _ => ok = true :=
    ensures_ataWaitNotBusy_of_free hPolls hFree
  unfold ataStart ataSelectLba28
  rw [ensures_bind_iff, ensures_bind_iff]
  apply ((ensures_ataWaitNotBusy (pio.keptBy_rests medium)
    hSilent).and hWait).mono
  rintro free middle ⟨hMiddle, rfl⟩
  have hStarts :=
    pio.starts_request hMiddle.1 hCode hLba
  have hAccepts :=
    hPrompt.accepts _ code
      (pio.rests_address hMiddle.1 lba).1 hCode
  have hPhase :
      pio.phase
          (ports.sendAll middle.device
            (ataRequest device code lba)) =
        firstPhase code (device.drive &&& 1) lba.toNat := by
    refine hStarts.2.resolve_right fun hRefused => ?_
    apply hAccepts
    unfold ataRequest Ports.sendAll at hRefused
    rw [List.foldl_append] at hRefused
    exact hRefused
  have hFirst :=
    firstPhase_isFirst code (device.drive &&& 1) lba.toNat
  rw [← hPhase] at hFirst
  rcases hPrompt.ready _ hFirst with
    ⟨tries, hTries, hReady, hEarlier⟩
  simp only [if_true, ensures_bind_iff, ensures_outb_iff,
    ensures_pure_iff, Machine.after_after]
  exact ensures_ataWaitDrq_of_ready hTries hReady hEarlier

end PioChannel

end

end Drivers

end Whirliscope

------------------------------------------------------------
-- Single Sectors
------------------------------------------------------------

namespace Whirliscope

namespace Drivers

open ByteMemory FaultProgram PortIO

section

variable {δ : Type} {stops : Empty → Prop}
variable {ports : Ports δ} {device : AtaDevice}
variable {machine : Machine δ}
variable (pio : PioChannel ports device.channel)
variable {medium : UInt8 → Bytes}

namespace PioChannel

/- The phase after some words of a transfer. -/
def nextPhase
    (done : Nat)
    (phase : PioPhase) : PioPhase :=
  if done = ataSectorWords then .idle else phase

theorem ensures_ataDelay
    (hRests : pio.Rests medium machine.device) :
    Ensures stops (ataDelay ports device.channel) machine
      fun _ final => pio.Rests medium final.device := by
  have hSilent :
      Silent (pio.Rests medium) machine.sent machine :=
    ⟨hRests, rfl⟩
  apply (Drivers.ensures_ataDelay
    (pio.keptBy_rests_control medium) hSilent).mono
  exact fun _ _ hFinal => hFinal.1

/- The words of a sector fill the buffer. -/
theorem ensures_ataReadWords
    {drive : UInt8}
    {lba : Nat}
    (hMedium : pio.medium machine.device = medium)
    (hPhase :
      pio.phase machine.device = .sending drive lba 0)
    (buffer : Bytes) :
    Ensures stops
      (upTo (ataReadWord ports device.channel) ataSectorWords
        buffer)
      machine
      fun out final =>
        pio.Rests medium final.device ∧
          out =
            ByteMemory.write buffer 0 ataSectorSize
              (slice (medium drive) (lba * ataSectorSize)) := by
  apply (ensures_upTo
    (fun index out final =>
      pio.medium final.device = medium ∧
        pio.phase final.device =
          nextPhase index (.sending drive lba index) ∧
        out =
          ByteMemory.write buffer 0 (2 * index)
            (slice (medium drive) (lba * ataSectorSize)))
    ?_ ⟨hMedium, hPhase, (write_zero _ _ _).symm⟩).mono
  · rintro out final ⟨hFinal, hIdle, hOut⟩
    exact ⟨⟨hIdle, hFinal⟩, hOut⟩
  rintro index out ⟨state, before⟩ hIndex
    ⟨hSame, hState, hOut⟩
  dsimp only at hSame hState
  rw [nextPhase, if_neg (by omega)] at hState
  have hSend := pio.send state drive lba index hState
  rw [hSame] at hSend
  unfold ataReadWord
  rw [ensures_bind_iff, ensures_inw_iff, ensures_pure_iff]
  refine ⟨hSend.2.1, hSend.2.2, ?_⟩
  rw [hSend.1, hOut]
  exact setWord_write _ _ _

/- The words of a buffer make up the sector. -/
theorem ensures_ataWriteWords
    {drive : UInt8}
    {lba : Nat}
    (hMedium : pio.medium machine.device = medium)
    (hPhase :
      pio.phase machine.device = .taking drive lba [])
    (buffer : Bytes) :
    Ensures stops
      (upTo (ataWriteWord ports device.channel buffer)
        ataSectorWords ())
      machine
      fun _ final =>
        pio.Rests
          (takeSector pio.healthy medium drive lba
            ((List.range ataSectorWords).map
              (wordAt buffer)))
          final.device := by
  apply (ensures_upTo
    (fun index _ final =>
      pio.phase final.device =
          nextPhase index
            (.taking drive lba
              ((List.range index).map (wordAt buffer))) ∧
        pio.medium final.device =
          if index = ataSectorWords then
            takeSector pio.healthy medium drive lba
              ((List.range ataSectorWords).map
                (wordAt buffer))
          else
            medium)
    ?_ ⟨hPhase, hMedium⟩).mono
  · rintro _ final ⟨hIdle, hFinal⟩
    rw [if_pos rfl] at hFinal
    exact ⟨hIdle, hFinal⟩
  rintro index _ state hIndex ⟨hState, hSame⟩
  rw [nextPhase, if_neg (by omega)] at hState
  rw [if_neg (by omega)] at hSame
  have hTake :=
    pio.take state.device drive lba _ (wordAt buffer index)
      hState
  have hWords :
      (List.range index).map (wordAt buffer) ++
          [wordAt buffer index] =
        (List.range (index + 1)).map (wordAt buffer) := by
    rw [List.range_succ, List.map_append]
    rfl
  rw [hWords, List.length_map, List.length_range, hSame]
    at hTake
  unfold ataWriteWord
  rw [ensures_outw_iff, nextPhase]
  by_cases hLast : index + 1 = ataSectorWords
  · rw [if_pos hLast, hLast] at hTake
    rw [if_pos hLast, if_pos hLast]
    exact hTake
  · rw [if_neg hLast] at hTake
    rw [if_neg hLast, if_neg hLast]
    exact hTake

theorem firstPhase_read
    (drive : UInt8)
    (lba : Nat) :
    firstPhase ataCmdReadSectors drive lba =
      .sending drive lba 0 :=
  if_pos rfl

theorem firstPhase_write
    (drive : UInt8)
    (lba : Nat) :
    firstPhase ataCmdWriteSectors drive lba =
      .taking drive lba [] :=
  if_neg (by decide)

/- A start, with what is known of a prompt drive. -/
theorem ensures_ataStart_all
    (hRests : pio.Rests medium machine.device)
    {code : UInt8}
    (hCode :
      code = ataCmdReadSectors ∨ code = ataCmdWriteSectors)
    {lba : UInt32}
    (hLba : lba.toNat < 2 ^ 28) :
    Ensures stops (ataStart ports device code lba) machine
      fun ok final =>
        (pio.Prompt → ok = true) ∧
          pio.medium final.device = medium ∧
          (ok = true →
            pio.phase final.device =
              firstPhase code (device.drive &&& 1)
                lba.toNat) := by
  by_cases hPrompt : pio.Prompt
  · have hOk :
        Ensures stops (ataStart ports device code lba) machine
          fun ok _ => ok = true :=
      pio.ensures_ataStart_prompt hPrompt hRests hCode hLba
    apply ((pio.ensures_ataStart hRests hCode hLba).and
      hOk).mono
    exact fun _ _ hFinal => ⟨fun _ => hFinal.2, hFinal.1⟩
  · apply (pio.ensures_ataStart hRests hCode hLba).mono
    exact fun _ _ hFinal =>
      ⟨fun hNever => absurd hNever hPrompt, hFinal⟩

/- `ata_read_one` puts the sector into the buffer. -/
theorem ensures_ataReadOne
    (hRests : pio.Rests medium machine.device)
    {lba : UInt32}
    (hLba : lba.toNat < 2 ^ 28)
    (buffer : Bytes) :
    Ensures stops (ataReadOne ports device lba buffer) machine
      fun result final =>
        (pio.Prompt → result.1 = true) ∧
          pio.medium final.device = medium ∧
          (result.1 = true →
            pio.phase final.device = .idle ∧
              result.2 =
                ByteMemory.write buffer 0 ataSectorSize
                  (slice (medium (device.drive &&& 1))
                    (lba.toNat * ataSectorSize))) := by
  rw [ataReadOne_eq, ensures_bind_iff]
  apply (pio.ensures_ataStart_all hRests (.inl rfl)
    hLba).mono
  rintro ok middle ⟨hPrompt, hMedium, hPhase⟩
  cases ok with
  | false =>
      rw [if_neg Bool.false_ne_true, ensures_pure_iff]
      exact ⟨hPrompt, hMedium,
        fun hNever => Bool.noConfusion hNever⟩
  | true =>
      rw [if_pos rfl, ensures_bind_iff]
      have hFirst := hPhase rfl
      rw [firstPhase_read] at hFirst
      apply (pio.ensures_ataReadWords hMedium hFirst
        buffer).mono
      rintro out after ⟨hAfter, hOut⟩
      rw [ensures_bind_iff]
      apply (pio.ensures_ataDelay hAfter).mono
      rintro _ final hFinal
      rw [ensures_pure_iff]
      exact ⟨hPrompt, hFinal.2, fun _ => ⟨hFinal.1, hOut⟩⟩

/- `ata_write_one` gives the buffer to the drive. -/
theorem ensures_ataWriteOne
    (hRests : pio.Rests medium machine.device)
    {lba : UInt32}
    (hLba : lba.toNat < 2 ^ 28)
    (buffer : Bytes) :
    Ensures stops (ataWriteOne ports device lba buffer) machine
      fun ok final =>
        (pio.Prompt → ok = true) ∧
          if ok = true then
            pio.Rests
              (takeSector pio.healthy medium
                (device.drive &&& 1) lba.toNat
                ((List.range ataSectorWords).map
                  (wordAt buffer)))
              final.device
          else
            pio.medium final.device = medium := by
  rw [ataWriteOne_eq, ensures_bind_iff]
  apply (pio.ensures_ataStart_all hRests (.inr rfl)
    hLba).mono
  rintro ok middle ⟨hPrompt, hMedium, hPhase⟩
  cases ok with
  | false =>
      rw [if_neg Bool.false_ne_true, ensures_pure_iff,
        if_neg Bool.false_ne_true]
      exact ⟨hPrompt, hMedium⟩
  | true =>
      rw [if_pos rfl, ensures_bind_iff]
      have hFirst := hPhase rfl
      rw [firstPhase_write] at hFirst
      apply (pio.ensures_ataWriteWords hMedium hFirst
        buffer).mono
      rintro _ after hAfter
      rw [ensures_bind_iff]
      apply (pio.ensures_ataDelay hAfter).mono
      rintro _ final hFinal
      rw [ensures_pure_iff, if_pos rfl]
      exact ⟨hPrompt, hFinal⟩

end PioChannel

end

end Drivers

end Whirliscope

------------------------------------------------------------
-- Ranges of Sectors
------------------------------------------------------------

namespace Whirliscope

namespace Drivers

open ByteMemory FaultProgram PortIO

/-
  The media after a drive took over sectors of a buffer: it
  holds those that it is able to store.
-/
def storeSectors
    (healthy : UInt8 → Nat → Bool)
    (medium : UInt8 → Bytes)
    (drive : UInt8)
    (lba : Nat)
    (buffer : Bytes)
    (count : Nat) : UInt8 → Bytes :=
  fun other address =>
    let sector := address / ataSectorSize
    if other = drive ∧ lba ≤ sector ∧ sector < lba + count ∧
        healthy drive sector = true then
      buffer (address - lba * ataSectorSize)
    else
      medium other address

/- A buffer after sectors of a drive were read into it. -/
def loadSectors
    (medium : Bytes)
    (lba : Nat)
    (buffer : Bytes)
    (count : Nat) : Bytes :=
  write buffer 0 (count * ataSectorSize)
    (slice medium (lba * ataSectorSize))

section

variable {healthy : UInt8 → Nat → Bool}
variable {medium : UInt8 → Bytes}

theorem storeSectors_zero
    (healthy : UInt8 → Nat → Bool)
    (medium : UInt8 → Bytes)
    (drive : UInt8)
    (lba : Nat)
    (buffer : Bytes) :
    storeSectors healthy medium drive lba buffer 0 =
      medium := by
  funext other address
  unfold storeSectors
  dsimp only
  rw [if_neg]
  rintro ⟨-, hLow, hHigh, -⟩
  omega

/- The addresses of a sector. -/
theorem address_sector
    (sector address : Nat) :
    sector * ataSectorSize ≤ address ∧
        address < sector * ataSectorSize + ataSectorSize ↔
      address / ataSectorSize = sector := by
  have hSize : ataSectorSize = 512 := rfl
  rw [hSize]
  omega

/- What a drive holds after it took over a sector. -/
theorem takeSector_apply
    (drive : UInt8)
    (lba : Nat)
    (buffer : Bytes)
    (other : UInt8)
    (address : Nat) :
    takeSector healthy medium drive lba
        ((List.range ataSectorWords).map (wordAt buffer))
        other address =
      if other = drive ∧ address / ataSectorSize = lba ∧
          healthy drive lba = true then
        buffer (address - lba * ataSectorSize)
      else
        medium other address := by
  have hSize : ataSectorSize = 512 := rfl
  have hWords : ataSectorWords = 256 := rfl
  unfold takeSector
  by_cases hHealthy : healthy drive lba = true
  · rw [if_pos hHealthy]
    by_cases hDrive : other = drive
    · subst hDrive
      rw [Function.update_self]
      have hAddress := address_sector lba address
      by_cases hSector : address / ataSectorSize = lba
      · have hRange := hAddress.mpr hSector
        rw [if_pos ⟨rfl, hSector, hHealthy⟩,
          write_of_mem hRange.1 hRange.2,
          wordsBytes_wordAt _ (by omega)]
      · have hOutside := mt hAddress.mp hSector
        rw [if_neg fun hNever => hSector hNever.2.1,
          write_of_not_mem (by omega)]
    · rw [Function.update_of_ne hDrive,
        if_neg fun hNever => hDrive hNever.1]
  · rw [if_neg hHealthy,
      if_neg fun hNever => hHealthy hNever.2.2]

/- The drive takes over one more sector. -/
theorem storeSectors_succ
    (healthy : UInt8 → Nat → Bool)
    (medium : UInt8 → Bytes)
    (drive : UInt8)
    (lba : Nat)
    (buffer : Bytes)
    (count : Nat) :
    takeSector healthy
        (storeSectors healthy medium drive lba buffer count)
        drive (lba + count)
        ((List.range ataSectorWords).map
          (wordAt (slice buffer (count * ataSectorSize)))) =
      storeSectors healthy medium drive lba buffer
        (count + 1) := by
  funext other address
  rw [takeSector_apply]
  unfold storeSectors
  dsimp only
  by_cases hSector : address / ataSectorSize = lba + count
  · rw [hSector]
    split
    · next hHere =>
        rw [if_pos ⟨hHere.1, by omega, by omega, hHere.2.2⟩,
          slice_apply]
        have hRange := (address_sector _ address).mpr hSector
        rw [Nat.add_mul] at hRange ⊢
        congr 1
        omega
    · next hElse =>
        rw [if_neg fun hNever => by omega, if_neg]
        exact fun hNever =>
          hElse ⟨hNever.1, rfl, hNever.2.2.2⟩
  · rw [if_neg fun hNever => hSector hNever.2.1]
    congr 1
    rw [eq_iff_iff]
    have hNext :
        address / ataSectorSize < lba + count ↔
          address / ataSectorSize < lba + (count + 1) := by
      omega
    rw [hNext]

/- The buffer receives one more sector. -/
theorem loadSectors_succ
    (medium : Bytes)
    (lba : Nat)
    (buffer : Bytes)
    (count : Nat) :
    write (loadSectors medium lba buffer count)
        (count * ataSectorSize) ataSectorSize
        (write
          (slice (loadSectors medium lba buffer count)
            (count * ataSectorSize))
          0 ataSectorSize
          (slice medium ((lba + count) * ataSectorSize))) =
      loadSectors medium lba buffer (count + 1) := by
  have hAppend :=
    write_append buffer (slice medium (lba * ataSectorSize)) 0
      (count * ataSectorSize) ataSectorSize
  rw [Nat.zero_add] at hAppend
  unfold loadSectors
  rw [Nat.add_mul count 1, Nat.one_mul, ← hAppend]
  apply write_congr
  intro i hi
  rw [write_of_mem (Nat.zero_le i)
    (Nat.lt_of_lt_of_eq hi (Nat.zero_add _).symm), slice_apply,
    slice_apply, slice_apply, Nat.add_mul, Nat.add_assoc,
    Nat.sub_zero]

end

end Drivers

end Whirliscope

------------------------------------------------------------
-- Transfers
------------------------------------------------------------

namespace Whirliscope

namespace Drivers

open ByteMemory FaultProgram PortIO

section

variable {δ : Type} {stops : Empty → Prop}
variable {ports : Ports δ} {device : AtaDevice}
variable {machine : Machine δ}
variable (pio : PioChannel ports device.channel)
variable {medium : UInt8 → Bytes} {lba sectorCount : Nat}

namespace PioChannel

/- A read that succeeds fills the buffer from the medium. -/
theorem ensures_ataBlockRead
    (hRests : pio.Rests medium machine.device)
    (hInside : lba + sectorCount ≤ 0x10000000)
    (buffer : Bytes) :
    Ensures stops
      (ataBlockRead ports (some device) lba buffer
        sectorCount)
      machine
      fun result final =>
        (pio.Prompt → result.1 = true) ∧
          pio.medium final.device = medium ∧
          (result.1 = true →
            pio.phase final.device = .idle ∧
              result.2 =
                loadSectors (medium (device.drive &&& 1)) lba
                  buffer sectorCount) := by
  have hLimit : ¬ ataOutside lba sectorCount = true := by
    rw [ataOutside_eq (by omega), decide_eq_true_eq]
    omega
  unfold ataBlockRead
  dsimp only
  rw [if_neg hLimit]
  apply (ensures_allUpTo
    (fun index out final =>
      pio.Rests medium final.device ∧
        out =
          loadSectors (medium (device.drive &&& 1)) lba buffer
            index)
    (fun _ _ final =>
      ¬ pio.Prompt ∧ pio.medium final.device = medium)
    ?_ (Nat.zero_add sectorCount) ⟨hRests, ?_⟩).mono
  · rintro ⟨ok, out⟩ final hFinal
    cases ok with
    | true =>
        exact ⟨fun _ => rfl, hFinal.1.2,
          fun _ => ⟨hFinal.1.1, hFinal.2⟩⟩
    | false =>
        rcases hFinal with ⟨_, _, _, hPrompt, hMedium⟩
        exact ⟨fun hNever => absurd hNever hPrompt, hMedium,
          fun hNever => Bool.noConfusion hNever⟩
  · rintro index out state hIndex ⟨hState, hOut⟩
    rcases toNat_sector hInside hIndex with ⟨hSector, hLba⟩
    unfold ataReadSector
    rw [ensures_bind_iff]
    apply (pio.ensures_ataReadOne hState hLba _).mono
    rintro ⟨ok, sector⟩ final ⟨hPrompt, hMedium, hRead⟩
    dsimp only at hPrompt hRead ⊢
    rw [ensures_pure_iff]
    cases ok with
    | true =>
        rcases hRead rfl with ⟨hIdle, hBytes⟩
        rw [if_pos rfl]
        refine ⟨⟨hIdle, hMedium⟩, ?_⟩
        rw [hBytes, hOut, hSector]
        exact loadSectors_succ _ _ _ _
    | false =>
        rw [if_neg Bool.false_ne_true]
        exact ⟨fun hNever => Bool.noConfusion (hPrompt hNever),
          hMedium⟩
  · rw [loadSectors, Nat.zero_mul, write_zero]

/-
  A write that succeeds gave all sectors to the drive, one
  that fails those before some sector.
-/
theorem ensures_ataBlockWrite
    (hRests : pio.Rests medium machine.device)
    (hInside : lba + sectorCount ≤ 0x10000000)
    (buffer : Bytes) :
    Ensures stops
      (ataBlockWrite ports (some device) lba buffer
        sectorCount)
      machine
      fun ok final =>
        (pio.Prompt → ok = true) ∧
          if ok = true then
            pio.Rests
              (storeSectors pio.healthy medium
                (device.drive &&& 1) lba buffer sectorCount)
              final.device
          else
            ∃ done, done < sectorCount ∧
              pio.medium final.device =
                storeSectors pio.healthy medium
                  (device.drive &&& 1) lba buffer done := by
  have hLimit : ¬ ataOutside lba sectorCount = true := by
    rw [ataOutside_eq (by omega), decide_eq_true_eq]
    omega
  unfold ataBlockWrite
  dsimp only
  rw [if_neg hLimit, ensures_bind_iff]
  apply (ensures_allUpTo
    (fun index _ final =>
      pio.Rests
        (storeSectors pio.healthy medium (device.drive &&& 1)
          lba buffer index)
        final.device)
    (fun index _ final =>
      ¬ pio.Prompt ∧
        pio.medium final.device =
          storeSectors pio.healthy medium
            (device.drive &&& 1) lba buffer index)
    ?_ (Nat.zero_add sectorCount) ?_).mono
  · rintro ⟨ok, _⟩ final hFinal
    dsimp only
    rw [ensures_pure_iff]
    cases ok with
    | true => exact ⟨fun _ => rfl, hFinal⟩
    | false =>
        rcases hFinal with
          ⟨index, _, hIndex, hPrompt, hMedium⟩
        exact ⟨fun hNever => absurd hNever hPrompt,
          index, hIndex, hMedium⟩
  · rintro index _ state hIndex hState
    rcases toNat_sector hInside hIndex with ⟨hSector, hLba⟩
    unfold ataWriteSector
    rw [ensures_bind_iff]
    apply (pio.ensures_ataWriteOne hState hLba _).mono
    rintro ok final ⟨hPrompt, hFinal⟩
    rw [ensures_pure_iff]
    cases ok with
    | true =>
        rw [if_pos rfl] at hFinal ⊢
        rw [hSector, storeSectors_succ] at hFinal
        exact hFinal
    | false =>
        rw [if_neg Bool.false_ne_true] at hFinal ⊢
        exact ⟨fun hNever => Bool.noConfusion (hPrompt hNever),
          hFinal⟩
  · rw [storeSectors_zero]
    exact hRests

end PioChannel

end

end Drivers

end Whirliscope

------------------------------------------------------------
-- A Drive
------------------------------------------------------------

namespace Whirliscope

namespace Drivers

open ByteMemory FaultProgram PortIO

/- Drives that answer at once. -/
structure PioState where
  phase : PioPhase
  bus : AtaBus
  medium : UInt8 → Bytes

namespace PioState

/- The status that a phase shows. -/
def status
    (state : PioState) : UInt8 :=
  match state.phase with
  | .idle => 0x50
  | .sending _ _ _ => 0x58
  | .taking _ _ _ => 0x58
  | .refused => 0x51

/- The phase that a command starts. -/
def started
    (state : PioState)
    (code : UInt8) : PioPhase :=
  match state.phase with
  | .idle =>
      if code = ataCmdReadSectors then
        .sending state.bus.drive state.bus.lba 0
      else if code = ataCmdWriteSectors then
        .taking state.bus.drive state.bus.lba []
      else
        .refused
  | other => other

def sendWord
    (state : PioState) : UInt16 × PioState :=
  match state.phase with
  | .sending drive lba word =>
      (wordAt
        (slice (state.medium drive) (lba * ataSectorSize))
        word,
        { state with
          phase :=
            if word + 1 = ataSectorWords then .idle
            else .sending drive lba (word + 1) })
  | _ => (0, state)

def takeWord
    (healthy : UInt8 → Nat → Bool)
    (state : PioState)
    (value : UInt16) : PioState :=
  match state.phase with
  | .taking drive lba words =>
      if words.length + 1 = ataSectorWords then
        { state with
          phase := .idle
          medium :=
            takeSector healthy state.medium drive lba
              (words ++ [value]) }
      else
        { state with
          phase := .taking drive lba (words ++ [value]) }
  | _ => state

/- The registers after an output. -/
def observe
    (channel : AtaChannel)
    (state : PioState)
    (output : Output) : PioState :=
  { state with bus := state.bus.observe channel output }

end PioState

/- The ports of such drives. -/
def pioPorts
    (channel : AtaChannel)
    (healthy : UInt8 → Nat → Bool) : Ports PioState where
  inByte := fun port state =>
    (if port = channel.ioBase + ataRegStatus then state.status
      else 0, state)
  inWord := fun port state =>
    if port = channel.ioBase + ataRegData then state.sendWord
    else (0, state)
  outByte := fun port value state =>
    let after := state.observe channel (.byte port value)
    if port = channel.ioBase + ataRegCommand then
      { after with phase := state.started value }
    else
      after
  outWord := fun port value state =>
    let after :=
      if port = channel.ioBase + ataRegData then
        state.takeWord healthy value
      else
        state
    after.observe channel (.word port value)

section

variable (channel : AtaChannel)
variable (healthy : UInt8 → Nat → Bool)

theorem takeWord_bus
    (state : PioState)
    (value : UInt16) :
    (state.takeWord healthy value).bus = state.bus := by
  unfold PioState.takeWord
  split
  · split <;> rfl
  · rfl

theorem status_movesData
    (state : PioState)
    (hAnswer : ataDrqAnswer state.status = some true) :
    state.phase.MovesData := by
  unfold PioState.status at hAnswer
  cases hPhase : state.phase with
  | idle =>
      rw [hPhase] at hAnswer
      exact absurd hAnswer (by decide)
  | sending => trivial
  | taking => trivial
  | refused =>
      rw [hPhase] at hAnswer
      exact absurd hAnswer (by decide)

/- They keep to the protocol. -/
def pioChannel :
    PioChannel (pioPorts channel healthy) channel where
  phase := PioState.phase
  bus := PioState.bus
  medium := PioState.medium
  healthy := healthy
  bus_send := by
    intro state output
    cases output with
    | byte port value =>
        dsimp only [Ports.send, pioPorts]
        split <;> rfl
    | word port value =>
        dsimp only [Ports.send, pioPorts, PioState.observe]
        split
        · rw [takeWord_bus]
        · rfl
  status := by
    intro state
    dsimp only [pioPorts]
    rw [if_pos rfl]
    exact ⟨rfl, rfl, status_movesData state⟩
  control := fun _ => ⟨rfl, rfl⟩
  address := by
    intro state register value hIdle hRegister
    have hOther : register ≠ ataRegCommand := by
      intro hSame
      rw [hSame] at hRegister
      exact absurd hRegister (by decide)
    dsimp only [pioPorts]
    rw [if_neg fun hSame => hOther (Nat.add_left_cancel hSame)]
    exact ⟨hIdle, rfl⟩
  read := by
    intro state hIdle _ _
    dsimp only [pioPorts]
    rw [if_pos rfl]
    refine ⟨rfl, .inl ?_⟩
    dsimp only [PioState.started]
    rw [hIdle]
    rfl
  write := by
    intro state hIdle _ _
    dsimp only [pioPorts]
    rw [if_pos rfl]
    refine ⟨rfl, .inl ?_⟩
    dsimp only [PioState.started]
    rw [hIdle]
    rfl
  send := by
    intro state drive lba word hPhase
    dsimp only [pioPorts, PioState.sendWord]
    rw [if_pos rfl, hPhase]
    exact ⟨rfl, rfl, rfl⟩
  take := by
    intro state drive lba words value hPhase
    dsimp only [pioPorts, PioState.takeWord]
    rw [if_pos rfl, hPhase]
    dsimp only
    split <;> exact ⟨rfl, rfl⟩

theorem pioChannel_prompt :
    (pioChannel channel healthy).Prompt where
  free := by
    intro state hIdle
    refine ⟨0, by decide, ?_⟩
    have hPhase : state.phase = .idle := hIdle
    unfold statusAfter
    dsimp only [polled, pioPorts, Function.iterate_zero, id]
    rw [if_pos rfl]
    unfold PioState.status
    rw [hPhase]
    decide
  accepts := by
    intro state code hIdle hCode
    have hPhase : state.phase = .idle := hIdle
    dsimp only [pioChannel, pioPorts]
    rw [if_pos rfl]
    dsimp only [PioState.started]
    rw [hPhase]
    rcases hCode with rfl | rfl
    · exact fun hNever => PioPhase.noConfusion hNever
    · exact fun hNever => PioPhase.noConfusion hNever
  ready := by
    intro state hFirst
    refine ⟨0, by decide, ?_, fun earlier hNever =>
      absurd hNever (Nat.not_lt_zero earlier)⟩
    have hPhase : state.phase.IsFirst := hFirst
    have hData : ataDrqAnswer 0x58 = some true := by decide
    unfold statusAfter
    dsimp only [polled, pioPorts, Function.iterate_zero, id]
    rw [if_pos rfl]
    unfold PioState.status
    cases hState : state.phase with
    | idle =>
        rw [hState] at hPhase
        exact hPhase.elim
    | sending => exact hData
    | taking => exact hData
    | refused =>
        rw [hState] at hPhase
        exact hPhase.elim

end

end Drivers

end Whirliscope

------------------------------------------------------------
-- Runs of Transfers
------------------------------------------------------------

namespace Whirliscope

namespace Drivers

open ByteMemory FaultProgram PortIO

/- A call of the block layer for a drive of a channel. -/
inductive DiskCall where
| read
    (drive : UInt8)
    (lba : Nat)
    (buffer : Bytes)
    (sectorCount : Nat)
| write
    (drive : UInt8)
    (lba : Nat)
    (buffer : Bytes)
    (sectorCount : Nat)

/- The answer to a call, with the buffer that was read. -/
abbrev DiskReply :=
  Bool × Option Bytes

section

variable {δ : Type} (ports : Ports δ) (channel : AtaChannel)
variable (sectors : UInt8 → UInt32)

/- The call on the block device of the drive. -/
def DiskCall.run : DiskCall → PortProgram δ DiskReply
| .read drive lba buffer sectorCount =>
    blockRead
      (some (ataBlockDevice ports { channel, drive }
        (sectors drive).toNat))
      lba (some buffer) sectorCount
| .write drive lba buffer sectorCount => do
    let ok ←
      blockWrite
        (some (ataBlockDevice ports { channel, drive }
          (sectors drive).toNat))
        lba (some buffer) sectorCount
    return (ok, none)

def runDisk : List DiskCall → PortProgram δ (List DiskReply)
| [] => return []
| call :: calls => do
    let reply ← call.run ports channel sectors
    let replies ← runDisk calls
    return reply :: replies

end

section

variable (healthy : UInt8 → Nat → Bool)
variable (sectors : UInt8 → UInt32)

/- The ranges that the block layer and the driver accept. -/
def diskAccepts
    (drive : UInt8)
    (lba sectorCount : Nat) : Bool :=
  0 < sectorCount ∧
    lba + sectorCount ≤ min (sectors drive).toNat 0x10000000

/- What arrays of sectors answer, and what they become. -/
def diskServe
    (medium : UInt8 → Bytes) :
    DiskCall → DiskReply × (UInt8 → Bytes)
| .read drive lba buffer sectorCount =>
    if diskAccepts sectors drive lba sectorCount then
      ((true,
        some (loadSectors (medium (drive &&& 1)) lba buffer
          sectorCount)),
        medium)
    else
      ((false, some buffer), medium)
| .write drive lba buffer sectorCount =>
    if diskAccepts sectors drive lba sectorCount then
      ((true, none),
        storeSectors healthy medium (drive &&& 1) lba buffer
          sectorCount)
    else
      ((false, none), medium)

def diskServeAll
    (medium : UInt8 → Bytes) :
    List DiskCall → List DiskReply × (UInt8 → Bytes)
| [] => ([], medium)
| call :: calls =>
    let first := diskServe healthy sectors medium call
    let rest := diskServeAll first.2 calls
    (first.1 :: rest.1, rest.2)

end

section

variable {δ : Type} {stops : Empty → Prop}
variable {ports : Ports δ} {channel : AtaChannel}
variable {machine : Machine δ}
variable (pio : PioChannel ports channel)
variable {sectors : UInt8 → UInt32}
variable {medium : UInt8 → Bytes}

namespace PioChannel

/- The channel as it is seen for one of its drives. -/
def forDrive
    (drive : UInt8) :
    PioChannel ports
      (AtaDevice.mk channel drive).channel :=
  pio

/- What a device has but 28 bits do not number is refused. -/
theorem ataOutside_of_not_accepts
    {drive : UInt8}
    {lba sectorCount : Nat}
    (hRefused :
      ¬ diskAccepts sectors drive lba sectorCount = true)
    (hInside :
      0 < sectorCount ∧
        lba + sectorCount ≤ (sectors drive).toNat) :
    ataOutside lba sectorCount = true := by
  have hBound := (sectors drive).toNat_lt
  have hFar : ¬ lba + sectorCount ≤ 0x10000000 := by
    intro hSmall
    exact hRefused (decide_eq_true
      ⟨hInside.1, Nat.le_min.mpr ⟨hInside.2, hSmall⟩⟩)
  rw [ataOutside_eq (by omega), decide_eq_true_eq]
  omega

/- One call is answered as the arrays answer it. -/
theorem ensures_diskCall
    (hPrompt : pio.Prompt)
    (hIdle : pio.phase machine.device = .idle)
    (hMedium : pio.medium machine.device = medium)
    (call : DiskCall) :
    Ensures stops (call.run ports channel sectors) machine
      fun reply final =>
        reply =
            (diskServe pio.healthy sectors medium call).1 ∧
          pio.phase final.device = .idle ∧
          pio.medium final.device =
            (diskServe pio.healthy sectors medium call).2 := by
  cases call with
  | read drive lba buffer sectorCount =>
      unfold DiskCall.run
      by_cases hAccepts :
          diskAccepts sectors drive lba sectorCount = true
      · have hServe :
            diskServe pio.healthy sectors medium
                (.read drive lba buffer sectorCount) = _ :=
          if_pos hAccepts
        have hInside := of_decide_eq_true hAccepts
        have hBounds := Nat.le_min.mp hInside.2
        rw [hServe]
        apply ensures_blockRead rfl
        · exact fun hRefused =>
            absurd ⟨hInside.1, hBounds.1⟩ hRefused
        intro _
        apply ((pio.forDrive drive).ensures_ataBlockRead
          ⟨hIdle, hMedium⟩ hBounds.2 buffer).mono
        rintro ⟨ok, out⟩ final ⟨hOk, hSame, hRead⟩
        have hTrue := hOk hPrompt
        dsimp only at hTrue
        subst hTrue
        rcases hRead rfl with ⟨hFinal, hOut⟩
        dsimp only at hOut
        rw [hOut]
        exact ⟨rfl, hFinal, hSame⟩
      · have hServe :
            diskServe pio.healthy sectors medium
                (.read drive lba buffer sectorCount) = _ :=
          if_neg hAccepts
        rw [hServe]
        apply ensures_blockRead rfl
        · exact fun _ => ⟨rfl, hIdle, hMedium⟩
        intro hInside
        unfold ataBlockRead
        dsimp only
        rw [if_pos (ataOutside_of_not_accepts hAccepts hInside),
          ensures_pure_iff]
        exact ⟨rfl, hIdle, hMedium⟩
  | write drive lba buffer sectorCount =>
      unfold DiskCall.run
      rw [ensures_bind_iff]
      by_cases hAccepts :
          diskAccepts sectors drive lba sectorCount = true
      · have hServe :
            diskServe pio.healthy sectors medium
                (.write drive lba buffer sectorCount) = _ :=
          if_pos hAccepts
        have hInside := of_decide_eq_true hAccepts
        have hBounds := Nat.le_min.mp hInside.2
        rw [hServe]
        apply ensures_blockWrite rfl rfl
        · exact fun hRefused =>
            absurd ⟨hInside.1, hBounds.1⟩ hRefused
        intro _
        apply ((pio.forDrive drive).ensures_ataBlockWrite
          ⟨hIdle, hMedium⟩ hBounds.2 buffer).mono
        rintro ok final ⟨hOk, hWritten⟩
        have hTrue := hOk hPrompt
        subst hTrue
        rw [if_pos rfl] at hWritten
        rw [ensures_pure_iff]
        exact ⟨rfl, hWritten⟩
      · have hServe :
            diskServe pio.healthy sectors medium
                (.write drive lba buffer sectorCount) = _ :=
          if_neg hAccepts
        rw [hServe]
        apply ensures_blockWrite rfl rfl
        · intro _
          rw [ensures_pure_iff]
          exact ⟨rfl, hIdle, hMedium⟩
        intro hInside
        unfold ataBlockWrite
        dsimp only
        rw [if_pos (ataOutside_of_not_accepts hAccepts hInside),
          ensures_pure_iff, ensures_pure_iff]
        exact ⟨rfl, hIdle, hMedium⟩

end PioChannel

/-
  On drives that answer in time, any run of reads and writes
  is served as arrays of sectors serve it, except that a
  sector which the drive cannot store keeps its bytes although
  the write succeeds.
-/
theorem runDisk_serves
    (hPrompt : pio.Prompt)
    (hIdle : pio.phase machine.device = .idle)
    (calls : List DiskCall) :
    Ensures stops (runDisk ports channel sectors calls) machine
      fun replies final =>
        replies =
            (diskServeAll pio.healthy sectors
              (pio.medium machine.device) calls).1 ∧
          pio.phase final.device = .idle ∧
          pio.medium final.device =
            (diskServeAll pio.healthy sectors
              (pio.medium machine.device) calls).2 := by
  induction calls generalizing machine with
  | nil =>
      unfold runDisk
      rw [ensures_pure_iff]
      exact ⟨rfl, hIdle, rfl⟩
  | cons call calls ih =>
      unfold runDisk
      rw [ensures_bind_iff]
      apply (pio.ensures_diskCall hPrompt hIdle rfl call).mono
      rintro reply middle ⟨rfl, hMiddle, hMedium⟩
      rw [ensures_bind_iff]
      apply (ih hMiddle).mono
      rintro replies final ⟨rfl, hFinal, hLast⟩
      rw [hMedium] at hLast ⊢
      rw [ensures_pure_iff]
      exact ⟨rfl, hFinal, hLast⟩

end

/- Two drives with zeros, and with a sector that is bad. -/
def sampleDisks : PioState where
  phase := .idle
  bus := AtaBus.reset
  medium := fun _ => zeros

def sampleHealthy
    (drive : UInt8)
    (lba : Nat) : Bool :=
  drive ≠ 1 ∨ lba ≠ 7

/- A write to each drive, and a read. -/
def sampleDiskCalls : List DiskCall :=
  [.write 0 3 (fun _ => 5) 2, .write 1 6 (fun _ => 9) 2,
    .read 1 7 zeros 1]

def sampleChannel : AtaChannel where
  ioBase := 0x1f0
  controlBase := 0x3f6
  name := "ata0"

theorem sampleDisks_serve :
    Ensures (fun _ => False)
      (runDisk (pioPorts sampleChannel sampleHealthy)
        sampleChannel (fun _ => 100) sampleDiskCalls)
      ⟨sampleDisks, []⟩
      fun replies final =>
        replies =
            (diskServeAll sampleHealthy (fun _ => 100)
              (fun _ => zeros) sampleDiskCalls).1 ∧
          final.device.phase = .idle ∧
          final.device.medium =
            (diskServeAll sampleHealthy (fun _ => 100)
              (fun _ => zeros) sampleDiskCalls).2 :=
  runDisk_serves (pioChannel sampleChannel sampleHealthy)
    (pioChannel_prompt sampleChannel sampleHealthy) rfl
    sampleDiskCalls

end Drivers

end Whirliscope
