import Mathlib.Data.List.Basic
import Whirliscope.Drivers.Ata
import Whirliscope.Drivers.Block

/-
  What the ATA driver asks of the drives, whatever they
  answer: the commands that its outputs amount to.

  Key definitions include:
    * `AtaCommand`, `AtaBus.observe`, `issued`

  Main theorems:
    * `ensures_ataBlockRead_issued`
    * `ensures_ataBlockWrite_issued`
-/

------------------------------------------------------------
-- Commands on the Bus
------------------------------------------------------------

namespace Whirliscope

namespace Drivers

open ByteMemory FaultProgram PortIO

/- A command as the drives see it, with the data after it. -/
structure AtaCommand where
  code : UInt8
  drive : UInt8
  lba : Nat
  sectors : UInt8
  words : List UInt16
deriving DecidableEq

/-
  The registers of a channel as they were last sent, and the
  commands, the latest first.
-/
structure AtaBus where
  select : UInt8
  seccount0 : UInt8
  lba0 : UInt8
  lba1 : UInt8
  lba2 : UInt8
  commands : List AtaCommand

namespace AtaBus

/- The drive that the registers select. -/
def drive
    (bus : AtaBus) : UInt8 :=
  (bus.select >>> 4) &&& 1

/- The sector that the registers address, in 28 bits. -/
def lba
    (bus : AtaBus) : Nat :=
  bus.lba0.toNat + 2 ^ 8 * bus.lba1.toNat +
    2 ^ 16 * bus.lba2.toNat +
    2 ^ 24 * (bus.select &&& 0x0f).toNat

/- The command that a code gives. -/
def command
    (bus : AtaBus)
    (code : UInt8) : AtaCommand where
  code := code
  drive := bus.drive
  lba := bus.lba
  sectors := bus.seccount0
  words := []

/- A word of data belongs to the latest command. -/
def addWord
    (word : UInt16) : List AtaCommand → List AtaCommand
| [] => []
| command :: older =>
    { command with words := command.words ++ [word] } :: older

/- What an output to a channel means to the drives. -/
def observe
    (channel : AtaChannel)
    (bus : AtaBus) : Output → AtaBus
| .byte port value =>
    if port = channel.ioBase + ataRegHddevsel then
      { bus with select := value }
    else if port = channel.ioBase + ataRegSeccount0 then
      { bus with seccount0 := value }
    else if port = channel.ioBase + ataRegLba0 then
      { bus with lba0 := value }
    else if port = channel.ioBase + ataRegLba1 then
      { bus with lba1 := value }
    else if port = channel.ioBase + ataRegLba2 then
      { bus with lba2 := value }
    else if port = channel.ioBase + ataRegCommand then
      { bus with
        commands := bus.command value :: bus.commands }
    else
      bus
| .word port value =>
    if port = channel.ioBase + ataRegData then
      { bus with commands := addWord value bus.commands }
    else
      bus

def observeAll
    (channel : AtaChannel)
    (bus : AtaBus)
    (outputs : List Output) : AtaBus :=
  outputs.foldl (observe channel) bus

@[simp] theorem observeAll_append
    (channel : AtaChannel)
    (bus : AtaBus)
    (first second : List Output) :
    observeAll channel bus (first ++ second) =
      observeAll channel (observeAll channel bus first)
        second :=
  List.foldl_append

end AtaBus

/- The registers after a reset. -/
def AtaBus.reset : AtaBus where
  select := 0
  seccount0 := 0
  lba0 := 0
  lba1 := 0
  lba2 := 0
  commands := []

/- The commands that outputs to a channel amount to. -/
def issued
    (channel : AtaChannel)
    (outputs : List Output) : List AtaCommand :=
  (AtaBus.reset.observeAll channel outputs).commands.reverse

/- The outputs that address a sector. -/
def ataAddress
    (channel : AtaChannel)
    (drive : UInt8)
    (lba : UInt32)
    (sectors : UInt8) : List Output :=
  [.byte (channel.ioBase + ataRegHddevsel)
      (ataLbaSelect drive lba),
    .byte (channel.ioBase + ataRegSeccount0) sectors,
    .byte (channel.ioBase + ataRegLba0) lba.toUInt8,
    .byte (channel.ioBase + ataRegLba1) (lba >>> 8).toUInt8,
    .byte (channel.ioBase + ataRegLba2)
      (lba >>> 16).toUInt8]

/- The outputs that give a command for one sector. -/
def ataRequest
    (device : AtaDevice)
    (code : UInt8)
    (lba : UInt32) : List Output :=
  ataAddress device.channel device.drive lba 1 ++
    [.byte (device.channel.ioBase + ataRegCommand) code]

/- The outputs that carry a sector. -/
def ataData
    (channel : AtaChannel)
    (buffer : Bytes) : List Output :=
  (List.range ataSectorWords).map fun index =>
    .word (channel.ioBase + ataRegData) (wordAt buffer index)

/- The command for one sector. -/
def sectorCommand
    (device : AtaDevice)
    (code : UInt8)
    (lba : Nat)
    (words : List UInt16) : AtaCommand where
  code := code
  drive := device.drive &&& 1
  lba := lba
  sectors := 1
  words := words

section

variable {device : AtaDevice}
variable {lba : UInt32} {bus : AtaBus}

/-
  The select byte asks for a linear address, and keeps the
  drive and the top bits of the address.
-/
theorem ataLbaSelect_fields
    (drive : UInt8)
    (lba : UInt32) :
    ataLbaSelect drive lba &&& 0x40 ≠ 0 ∧
      (ataLbaSelect drive lba >>> 4) &&& 1 = drive &&& 1 ∧
      (ataLbaSelect drive lba &&& 0x0f).toNat =
        lba.toNat / 2 ^ 24 % 2 ^ 4 := by
  have hAll :
      ∀ bit < 2, ∀ top < 16,
        let select :=
          ((0xe0 : UInt8) ||| (UInt8.ofNat bit <<< 4)) |||
            UInt8.ofNat top
        select &&& 0x40 ≠ 0 ∧
          (select >>> 4) &&& 1 = UInt8.ofNat bit ∧
          (select &&& 0x0f).toNat = top := by
    decide
  have hBit : (drive &&& 1).toNat < 2 := by
    rw [UInt8.toNat_and]
    exact Nat.lt_succ_of_le Nat.and_le_right
  have hTop : lba.toNat / 2 ^ 24 % 2 ^ 4 < 16 :=
    Nat.mod_lt _ (by decide)
  have hTopByte :
      ((lba >>> 24) &&& 0x0f).toUInt8 =
        UInt8.ofNat (lba.toNat / 2 ^ 24 % 2 ^ 4) := by
    apply UInt8.toNat_inj.mp
    rw [UInt8.toNat_ofNat']
    rw [UInt32.toNat_toUInt8, UInt32.toNat_and,
      UInt32.toNat_shiftRight]
    have hMask :
        lba.toNat >>> (UInt32.toNat 24 % 32) &&&
            UInt32.toNat 0x0f =
          lba.toNat / 2 ^ 24 % 2 ^ 4 := by
      change lba.toNat >>> 24 &&& 2 ^ 4 - 1 = _
      rw [Nat.and_two_pow_sub_one_eq_mod,
        Nat.shiftRight_eq_div_pow]
    rw [hMask]
  unfold ataLbaSelect
  rw [hTopByte, ← UInt8.ofNat_toNat (x := drive &&& 1)]
  exact hAll _ hBit _ hTop

/- The address outputs set the registers and no more. -/
theorem observe_ataAddress
    (channel : AtaChannel)
    (bus : AtaBus)
    (drive : UInt8)
    (lba : UInt32)
    (sectors : UInt8) :
    bus.observeAll channel
        (ataAddress channel drive lba sectors) =
      { select := ataLbaSelect drive lba
        seccount0 := sectors
        lba0 := lba.toUInt8
        lba1 := (lba >>> 8).toUInt8
        lba2 := (lba >>> 16).toUInt8
        commands := bus.commands } := by
  unfold ataAddress AtaBus.observeAll
  simp only [List.foldl_cons, List.foldl_nil, AtaBus.observe,
    ataRegHddevsel, ataRegSeccount0, ataRegLba0, ataRegLba1,
    ataRegLba2, Nat.add_left_cancel_iff, if_true,
    Nat.reduceEqDiff, if_false]

/- The registers hold the address that was sent. -/
theorem command_ataAddress
    (channel : AtaChannel)
    (bus : AtaBus)
    (device : AtaDevice)
    (hLba : lba.toNat < 2 ^ 28)
    (code : UInt8) :
    (bus.observeAll channel
        (ataAddress channel device.drive lba 1)).command
          code =
      sectorCommand device code lba.toNat [] := by
  have hSelect := ataLbaSelect_fields device.drive lba
  rw [observe_ataAddress]
  unfold AtaBus.command AtaBus.drive AtaBus.lba sectorCommand
  dsimp only
  rw [hSelect.2.1, hSelect.2.2, UInt32.toNat_toUInt8,
    UInt32.toNat_toUInt8, UInt32.toNat_toUInt8,
    UInt32.toNat_shiftRight, UInt32.toNat_shiftRight]
  have hMiddle :
      lba.toNat >>> (UInt32.toNat 8 % 32) =
        lba.toNat / 2 ^ 8 :=
    Nat.shiftRight_eq_div_pow _ 8
  have hHigh :
      lba.toNat >>> (UInt32.toNat 16 % 32) =
        lba.toNat / 2 ^ 16 :=
    Nat.shiftRight_eq_div_pow _ 16
  rw [hMiddle, hHigh]
  congr 2
  omega

theorem observe_ataRequest
    (hLba : lba.toNat < 2 ^ 28)
    (code : UInt8) :
    (bus.observeAll device.channel
        (ataRequest device code lba)).commands =
      sectorCommand device code lba.toNat [] ::
        bus.commands := by
  have hCommand :=
    command_ataAddress device.channel bus device hLba code
  have hCommands :=
    congrArg AtaBus.commands
      (observe_ataAddress device.channel bus device.drive lba
        1)
  unfold ataRequest
  rw [AtaBus.observeAll_append]
  unfold AtaBus.observeAll at hCommand hCommands ⊢
  simp only [List.foldl_cons, List.foldl_nil, AtaBus.observe,
    ataRegHddevsel, ataRegSeccount0, ataRegLba0, ataRegLba1,
    ataRegLba2, ataRegCommand, Nat.add_left_cancel_iff,
    if_true, Nat.reduceEqDiff, if_false]
  rw [hCommand, hCommands]

/- The data go with the latest command. -/
theorem observe_words
    (channel : AtaChannel)
    (words : Nat → UInt16)
    (count : Nat)
    {latest : AtaCommand}
    {older : List AtaCommand}
    (hLatest : bus.commands = latest :: older) :
    (bus.observeAll channel
        ((List.range count).map fun index =>
          .word (channel.ioBase + ataRegData)
            (words index))).commands =
      { latest with
        words :=
          latest.words ++ (List.range count).map words } ::
        older := by
  induction count with
  | zero =>
      rw [List.range_zero, List.map_nil, List.map_nil,
        List.append_nil]
      exact hLatest
  | succ count ih =>
      rw [List.range_succ, List.map_append,
        AtaBus.observeAll_append, List.map_append]
      unfold AtaBus.observeAll at ih ⊢
      simp only [List.map_cons, List.map_nil, List.foldl_cons,
        List.foldl_nil, AtaBus.observe, if_true]
      rw [ih]
      simp [AtaBus.addWord]

/- The words of a sector in a buffer. -/
def sectorWords
    (buffer : Bytes)
    (index : Nat) : List UInt16 :=
  (List.range ataSectorWords).map
    (wordAt (slice buffer (index * ataSectorSize)))

/- A request adds a command without data. -/
theorem issued_request
    (device : AtaDevice)
    (hLba : lba.toNat < 2 ^ 28)
    (code : UInt8)
    (sent : List Output) :
    issued device.channel
        (sent ++ ataRequest device code lba) =
      issued device.channel sent ++
        [sectorCommand device code lba.toNat []] := by
  unfold issued
  rw [AtaBus.observeAll_append, observe_ataRequest hLba,
    List.reverse_cons]

/- A request and the words of a sector add a command. -/
theorem issued_data
    (device : AtaDevice)
    (hLba : lba.toNat < 2 ^ 28)
    (code : UInt8)
    (buffer : Bytes)
    (sent : List Output) :
    issued device.channel
        (sent ++ (ataRequest device code lba ++
          ataData device.channel buffer)) =
      issued device.channel sent ++
        [sectorCommand device code lba.toNat
          ((List.range ataSectorWords).map
            (wordAt buffer))] := by
  unfold issued ataData
  rw [AtaBus.observeAll_append, AtaBus.observeAll_append,
    observe_words device.channel (wordAt buffer)
      ataSectorWords (observe_ataRequest hLba code),
    List.reverse_cons]
  rfl

end

end Drivers

end Whirliscope

------------------------------------------------------------
-- Requests
------------------------------------------------------------

namespace Whirliscope

namespace Drivers

open ByteMemory FaultProgram PortIO

section

variable {δ : Type} {stops : Empty → Prop}
variable {ports : Ports δ} {device : AtaDevice}
variable {inv : δ → Prop} {machine : Machine δ}
variable {sent : List Output}

/- A selection sends the address once the drive is free. -/
theorem ensures_ataSelectLba28
    (hKept :
      KeptBy ports (device.channel.ioBase + ataRegStatus) inv)
    (hSilent : Silent inv sent machine)
    (lba : UInt32)
    (sectors : UInt8) :
    Ensures stops
      (ataSelectLba28 ports device.channel device.drive lba
        sectors)
      machine
      fun ok final =>
        if ok = true then
          ∃ free, Silent inv sent free ∧
            final =
              free.after ports
                (ataAddress device.channel device.drive lba
                  sectors)
        else
          Silent inv sent final := by
  unfold ataSelectLba28
  rw [ensures_bind_iff]
  apply (ensures_ataWaitNotBusy hKept hSilent).mono
  intro free middle hFree
  cases free with
  | false =>
      rw [if_neg Bool.false_ne_true, ensures_pure_iff,
        if_neg Bool.false_ne_true]
      exact hFree
  | true =>
      rw [if_pos rfl]
      simp only [ensures_bind_iff, ensures_outb_iff,
        ensures_pure_iff, Machine.after_after, if_true]
      exact ⟨middle, hFree, rfl⟩

/- The program of a command up to its data. -/
def ataStart
    (ports : Ports δ)
    (device : AtaDevice)
    (code : UInt8)
    (lba : UInt32) : PortProgram δ Bool := do
  if ← ataSelectLba28 ports device.channel device.drive lba
      1 then
    outb ports (device.channel.ioBase + ataRegCommand) code
    ataWaitDrq ports device.channel
  else
    return false

theorem ataReadOne_eq
    (lba : UInt32)
    (buffer : Bytes) :
    ataReadOne ports device lba buffer =
      (do
        if ← ataStart ports device ataCmdReadSectors lba then
          let out ←
            upTo (ataReadWord ports device.channel)
              ataSectorWords buffer
          ataDelay ports device.channel
          return (true, out)
        else
          return (false, buffer)) := by
  unfold ataReadOne ataStart
  rw [bind_assoc]
  refine bind_congr fun ok => ?_
  cases ok <;> simp [bind_assoc]

theorem ataWriteOne_eq
    (lba : UInt32)
    (buffer : Bytes) :
    ataWriteOne ports device lba buffer =
      (do
        if ← ataStart ports device ataCmdWriteSectors lba then
          upTo (ataWriteWord ports device.channel buffer)
            ataSectorWords ()
          ataDelay ports device.channel
          return true
        else
          return false) := by
  unfold ataWriteOne ataStart
  rw [bind_assoc]
  refine bind_congr fun ok => ?_
  cases ok <;> simp [bind_assoc]

/-
  The start of a command sends nothing when the drive stays
  busy. Else it sends the request, and it succeeds only after
  a status that shows that data can be moved.
-/
theorem ensures_ataStart
    (hKept :
      KeptBy ports (device.channel.ioBase + ataRegStatus) inv)
    {code : UInt8}
    {lba : UInt32}
    (waiting ready : δ → Prop)
    (hSent :
      ∀ free, inv free →
        waiting
          (ports.sendAll free (ataRequest device code lba)))
    (hWaiting :
      KeptBy ports (device.channel.ioBase + ataRegStatus)
        waiting)
    (hReady :
      ∀ state, waiting state →
        ataDrqAnswer
            (ports.inByte
              (device.channel.ioBase + ataRegStatus)
              state).1 =
          some true →
        ready
          (ports.inByte (device.channel.ioBase + ataRegStatus)
            state).2)
    (hSilent : Silent inv sent machine) :
    Ensures stops (ataStart ports device code lba) machine
      fun ok final =>
        (ok = false ∧ Silent inv sent final) ∨
          (Silent waiting (sent ++ ataRequest device code lba)
              final ∧
            (ok = true → ready final.device)) := by
  unfold ataStart
  rw [ensures_bind_iff]
  apply (ensures_ataSelectLba28 hKept hSilent lba 1).mono
  intro free middle hMiddle
  cases free with
  | false =>
      rw [if_neg Bool.false_ne_true] at hMiddle
      rw [if_neg Bool.false_ne_true, ensures_pure_iff]
      exact .inl ⟨rfl, hMiddle⟩
  | true =>
      rw [if_pos rfl] at hMiddle
      rcases hMiddle with ⟨state, ⟨hInv, rfl⟩, rfl⟩
      rw [if_pos rfl, ensures_bind_iff, ensures_outb_iff,
        Machine.after_after]
      have hRequest :
          Silent waiting
            (state.sent ++ ataRequest device code lba)
            (state.after ports
              (ataRequest device code lba)) :=
        ⟨hSent state.device hInv, rfl⟩
      apply (ensures_ataWaitDrq hWaiting ready hReady
        hRequest).mono
      exact fun _ _ hFinal => .inr hFinal

end

end Drivers

end Whirliscope

------------------------------------------------------------
-- The Commands of a Transfer
------------------------------------------------------------

namespace Whirliscope

namespace Drivers

open ByteMemory FaultProgram PortIO

section

variable {δ : Type} {stops : Empty → Prop}
variable {ports : Ports δ} {device : AtaDevice}
variable {machine : Machine δ} {sent : List Output}

/- Any state of the devices. -/
def anyState
    {δ : Type}
    (_ : δ) : Prop :=
  True

theorem keptBy_anyState
    (port : Nat) :
    KeptBy ports port anyState :=
  fun _ _ => trivial

/- The outputs of a start, whatever the drive answers. -/
theorem ensures_ataStart_sent
    (code : UInt8)
    (lba : UInt32)
    (hSent : machine.sent = sent) :
    Ensures stops (ataStart ports device code lba) machine
      fun ok final =>
        (ok = false ∧ final.sent = sent) ∨
          final.sent =
            sent ++ ataRequest device code lba := by
  have hSilent : Silent anyState sent machine :=
    ⟨trivial, hSent⟩
  apply (ensures_ataStart (keptBy_anyState _) anyState anyState
    (fun _ _ => trivial) (keptBy_anyState _)
    (fun _ _ _ => trivial) hSilent).mono
  rintro ok final (⟨hOk, -, hFinal⟩ | ⟨⟨-, hFinal⟩, -⟩)
  · exact .inl ⟨hOk, hFinal⟩
  · exact .inr hFinal

theorem ensures_ataDelay_sent
    {channel : AtaChannel}
    (hSent : machine.sent = sent) :
    Ensures stops (ataDelay ports channel) machine
      fun _ final => final.sent = sent := by
  have hSilent : Silent anyState sent machine :=
    ⟨trivial, hSent⟩
  apply (ensures_ataDelay (keptBy_anyState _) hSilent).mono
  exact fun _ _ hFinal => hFinal.2

/- Reading a word sends nothing. -/
theorem ensures_ataReadWord_sent
    {channel : AtaChannel}
    (index : Nat)
    (out : Bytes)
    (hSent : machine.sent = sent) :
    Ensures stops (ataReadWord ports channel index out) machine
      fun _ final => final.sent = sent := by
  rcases machine with ⟨state, before⟩
  unfold ataReadWord
  rw [ensures_bind_iff, ensures_inw_iff, ensures_pure_iff]
  exact hSent

/- Reading a sector sends at most the request. -/
theorem ensures_ataReadOne_sent
    (lba : UInt32)
    (buffer : Bytes)
    (hSent : machine.sent = sent) :
    Ensures stops (ataReadOne ports device lba buffer) machine
      fun result final =>
        (result.1 = false ∧ final.sent = sent) ∨
          final.sent =
            sent ++
              ataRequest device ataCmdReadSectors lba := by
  rw [ataReadOne_eq, ensures_bind_iff]
  apply (ensures_ataStart_sent ataCmdReadSectors lba
    hSent).mono
  intro ok middle hMiddle
  cases ok with
  | false =>
      rw [if_neg Bool.false_ne_true, ensures_pure_iff]
      exact hMiddle
  | true =>
      have hRequest : middle.sent = _ :=
        hMiddle.resolve_left fun hNever =>
          Bool.false_ne_true hNever.1.symm
      rw [if_pos rfl, ensures_bind_iff]
      apply (ensures_upTo
        (fun _ (_ : Bytes) final =>
          final.sent =
            sent ++ ataRequest device ataCmdReadSectors lba)
        (fun index out state _ hState =>
          ensures_ataReadWord_sent index out hState)
        hRequest).mono
      intro out after hAfter
      rw [ensures_bind_iff]
      apply (ensures_ataDelay_sent hAfter).mono
      intro _ final hFinal
      rw [ensures_pure_iff]
      exact .inr hFinal

/-
  Writing a sector sends nothing, the request, or the request
  and the sector; the last alone is a success.
-/
theorem ensures_ataWriteOne_sent
    (lba : UInt32)
    (buffer : Bytes)
    (hSent : machine.sent = sent) :
    Ensures stops (ataWriteOne ports device lba buffer) machine
      fun ok final =>
        (ok = false ∧
            (final.sent = sent ∨
              final.sent =
                sent ++
                  ataRequest device ataCmdWriteSectors
                    lba)) ∨
          ok = true ∧
            final.sent =
              sent ++
                (ataRequest device ataCmdWriteSectors lba ++
                  ataData device.channel buffer) := by
  rw [ataWriteOne_eq, ensures_bind_iff]
  apply (ensures_ataStart_sent ataCmdWriteSectors lba
    hSent).mono
  intro ok middle hMiddle
  cases ok with
  | false =>
      rw [if_neg Bool.false_ne_true, ensures_pure_iff]
      exact .inl ⟨rfl, hMiddle.imp_left And.right⟩
  | true =>
      have hRequest : middle.sent = _ :=
        hMiddle.resolve_left fun hNever =>
          Bool.false_ne_true hNever.1.symm
      rw [if_pos rfl, ensures_bind_iff]
      apply (ensures_outWords middle (wordAt buffer)
        ataSectorWords).mono
      rintro _ after rfl
      rw [ensures_bind_iff]
      have hData :
          (middle.after ports
            (ataData device.channel buffer)).sent =
            sent ++
              (ataRequest device ataCmdWriteSectors lba ++
                ataData device.channel buffer) := by
        rw [← List.append_assoc, ← hRequest]
        rfl
      apply (ensures_ataDelay_sent hData).mono
      intro _ final hFinal
      rw [ensures_pure_iff]
      exact .inr ⟨rfl, hFinal⟩

/- The numbers of sectors below the limit of the driver. -/
theorem toNat_sector
    {lba sectorCount index : Nat}
    (hInside : lba + sectorCount ≤ 0x10000000)
    (hIndex : index < sectorCount) :
    (UInt32.ofNat (lba + index)).toNat = lba + index ∧
      (UInt32.ofNat (lba + index)).toNat < 2 ^ 28 := by
  have hSame : (UInt32.ofNat (lba + index)).toNat =
      lba + index := by
    rw [UInt32.toNat_ofNat']
    exact Nat.mod_eq_of_lt (by omega)
  rw [hSame]
  exact ⟨rfl, by omega⟩

/- The limit, where sums of 64 bits do not wrap around. -/
theorem ataOutside_eq
    {lba sectorCount : Nat}
    (hSum : lba + sectorCount < 2 ^ 64) :
    ataOutside lba sectorCount =
      decide (0x10000000 < lba + sectorCount) := by
  unfold ataOutside
  rw [wrap_of_lt hSum]

/- The command of each sector of a transfer, with its data. -/
def sectorCommands
    (device : AtaDevice)
    (code : UInt8)
    (lba : Nat)
    (words : Nat → List UInt16)
    (count : Nat) : List AtaCommand :=
  (List.range count).map fun index =>
    sectorCommand device code (lba + index) (words index)

theorem sectorCommands_succ
    (device : AtaDevice)
    (code : UInt8)
    (lba : Nat)
    (words : Nat → List UInt16)
    (count : Nat) :
    sectorCommands device code lba words (count + 1) =
      sectorCommands device code lba words count ++
        [sectorCommand device code (lba + count)
          (words count)] := by
  unfold sectorCommands
  rw [List.range_succ, List.map_append]
  rfl

/- How far a transfer came when it failed at a sector. -/
def StoppedAt
    (device : AtaDevice)
    (code : UInt8)
    (lba : Nat)
    (words : Nat → List UInt16)
    (index : Nat)
    (commands : List AtaCommand) : Prop :=
  commands = sectorCommands device code lba words index ∨
    commands =
      sectorCommands device code lba words index ++
        [sectorCommand device code (lba + index) []]

/-
  The commands of a transfer that stops early or not: one for
  each sector in turn, and no others.
-/
def TransferIssued
    (device : AtaDevice)
    (code : UInt8)
    (lba : Nat)
    (words : Nat → List UInt16)
    (sectorCount : Nat)
    (ok : Bool)
    (commands : List AtaCommand) : Prop :=
  if ok = true then
    commands =
      sectorCommands device code lba words sectorCount
  else
    commands = [] ∨
      ∃ index, index < sectorCount ∧
        StoppedAt device code lba words index commands

/- A loop over sectors whose every round asks for a sector. -/
theorem ensures_allUpTo_issued
    {α : Type}
    {body : Nat → α → PortProgram δ (Bool × α)}
    {code : UInt8}
    {lba sectorCount : Nat}
    (hInside : lba + sectorCount ≤ 0x10000000)
    (words : Nat → List UInt16)
    (hBody :
      ∀ index value state, index < sectorCount →
        Ensures stops (body index value) state
          fun result final =>
            if result.1 = true then
              issued device.channel final.sent =
                issued device.channel state.sent ++
                  [sectorCommand device code (lba + index)
                    (words index)]
            else
              issued device.channel final.sent =
                  issued device.channel state.sent ∨
                issued device.channel final.sent =
                  issued device.channel state.sent ++
                    [sectorCommand device code (lba + index)
                      []])
    (value : α)
    (hStart : machine.sent = []) :
    Ensures stops (allUpTo body 0 sectorCount value) machine
      fun result final =>
        TransferIssued device code lba words sectorCount
          result.1 (issued device.channel final.sent) := by
  apply (ensures_allUpTo
    (fun index _ final =>
      issued device.channel final.sent =
        sectorCommands device code lba words index)
    (fun index _ final =>
      StoppedAt device code lba words index
        (issued device.channel final.sent))
    ?_ (Nat.zero_add sectorCount) ?_).mono
  · rintro ⟨ok, after⟩ final hFinal
    unfold TransferIssued
    cases ok with
    | true => exact hFinal
    | false =>
        rcases hFinal with ⟨index, -, hIndex, hStopped⟩
        exact .inr ⟨index, hIndex, hStopped⟩
  · intro index value state hIndex hState
    apply (hBody index value state hIndex).mono
    rintro ⟨ok, after⟩ final hFinal
    rw [hState] at hFinal
    cases ok with
    | true =>
        rw [if_pos rfl] at hFinal ⊢
        rw [hFinal, sectorCommands_succ]
    | false => exact hFinal
  · rw [hStart]
    rfl

/- Whatever the drives answer, a read asks for its sectors. -/
theorem ensures_ataBlockRead_issued
    {lba sectorCount : Nat}
    (hSum : lba + sectorCount < 2 ^ 64)
    (buffer : Bytes)
    (hStart : machine.sent = []) :
    Ensures stops
      (ataBlockRead ports (some device) lba buffer
        sectorCount)
      machine
      fun result final =>
        (lba + sectorCount ≤ 0x10000000 ∨
            result.1 = false ∧
              issued device.channel final.sent = []) ∧
          TransferIssued device ataCmdReadSectors lba
            (fun _ => []) sectorCount result.1
            (issued device.channel final.sent) := by
  unfold ataBlockRead
  dsimp only
  rw [ataOutside_eq hSum, ensures_ite_iff]
  constructor
  · intro _
    rw [ensures_pure_iff, hStart]
    exact ⟨.inr ⟨rfl, rfl⟩, .inl rfl⟩
  · intro hLimit
    have hInside : lba + sectorCount ≤ 0x10000000 := by
      simpa using hLimit
    apply (ensures_allUpTo_issued hInside (fun _ => []) ?_
      buffer hStart).mono
    · exact fun _ _ hFinal => ⟨.inl hInside, hFinal⟩
    intro index out state hIndex
    have hSector := toNat_sector hInside hIndex
    have hIssued :=
      issued_request device hSector.2
        ataCmdReadSectors state.sent
    rw [hSector.1] at hIssued
    unfold ataReadSector
    rw [ensures_bind_iff]
    apply (ensures_ataReadOne_sent _ _ rfl).mono
    rintro ⟨ok, sector⟩ final hFinal
    dsimp only at hFinal ⊢
    rw [ensures_pure_iff]
    rcases hFinal with ⟨rfl, hSent⟩ | hSent
    · rw [hSent]
      exact .inl rfl
    · rw [hSent, hIssued]
      split
      · rfl
      · exact .inr rfl

/- So does a write, and with each it sends the sector. -/
theorem ensures_ataBlockWrite_issued
    {lba sectorCount : Nat}
    (hSum : lba + sectorCount < 2 ^ 64)
    (buffer : Bytes)
    (hStart : machine.sent = []) :
    Ensures stops
      (ataBlockWrite ports (some device) lba buffer
        sectorCount)
      machine
      fun ok final =>
        (lba + sectorCount ≤ 0x10000000 ∨
            ok = false ∧
              issued device.channel final.sent = []) ∧
          TransferIssued device ataCmdWriteSectors lba
            (sectorWords buffer) sectorCount ok
            (issued device.channel final.sent) := by
  unfold ataBlockWrite
  dsimp only
  rw [ataOutside_eq hSum, ensures_ite_iff]
  constructor
  · intro _
    rw [ensures_pure_iff, hStart]
    exact ⟨.inr ⟨rfl, rfl⟩, .inl rfl⟩
  · intro hLimit
    have hInside : lba + sectorCount ≤ 0x10000000 := by
      simpa using hLimit
    rw [ensures_bind_iff]
    apply (ensures_allUpTo_issued hInside
      (sectorWords buffer) ?_ () hStart).mono
    · rintro ⟨ok, _⟩ final hFinal
      dsimp only
      rw [ensures_pure_iff]
      exact ⟨.inl hInside, hFinal⟩
    intro index out state hIndex
    have hSector := toNat_sector hInside hIndex
    have hIssued :=
      issued_request device hSector.2
        ataCmdWriteSectors state.sent
    have hCarried :=
      issued_data device hSector.2
        ataCmdWriteSectors
        (slice buffer (index * ataSectorSize)) state.sent
    rw [hSector.1] at hIssued hCarried
    unfold ataWriteSector
    rw [ensures_bind_iff]
    apply (ensures_ataWriteOne_sent _ _ rfl).mono
    rintro ok final (⟨rfl, hSent | hSent⟩ | ⟨rfl, hSent⟩)
    · rw [ensures_pure_iff, hSent]
      exact .inl rfl
    · rw [ensures_pure_iff, hSent, hIssued]
      exact .inr rfl
    · rw [ensures_pure_iff, hSent, hCarried]
      rfl

end

end Drivers

end Whirliscope
