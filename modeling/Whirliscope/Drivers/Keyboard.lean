import Whirliscope.Libc.Format
import Whirliscope.Library.Ring

/-
  The keyboard driver.

  The interrupt handler decodes one byte of the controller and
  adds at most one event to a circular buffer. What it decodes
  depends on five flags only, so decoding and queueing are
  apart here.

  Key definitions include:
    * `Flags`, `handleScancode`
    * `Keyboard`, `pushEvent`, `keyboardIrq`
-/

------------------------------------------------------------
-- Scancodes
------------------------------------------------------------

namespace Whirliscope

namespace Drivers

open Stdio

/- `enum keyboard_key`. -/
inductive KeyboardKey where
| none
| char
| escape
| backspace
| tab
| enter
| up
| down
| left
| right
| home
| endKey
| delete
deriving DecidableEq, Repr

/- One row of a table of characters, from its first index. -/
def mapRow
    (start : Nat)
    (row : String)
    (scancode : Nat) : Option UInt8 :=
  if start ≤ scancode then (text row)[scancode - start]? else .none

/- `base_map`. -/
def baseMap
    (scancode : Nat) : UInt8 :=
  let found :=
    mapRow 0x39 " " scancode <|>
    mapRow 0x2c "zxcvbnm,./" scancode <|>
    mapRow 0x2b "\\" scancode <|>
    mapRow 0x1e "asdfghjkl;'`" scancode <|>
    mapRow 0x10 "qwertyuiop[]" scancode <|>
    mapRow 0x02 "1234567890-=" scancode
  found.getD 0

/- `shifted_map`. -/
def shiftedMap
    (scancode : Nat) : UInt8 :=
  let found :=
    mapRow 0x39 " " scancode <|>
    mapRow 0x2c "ZXCVBNM<>?" scancode <|>
    mapRow 0x2b "|" scancode <|>
    mapRow 0x1e "ASDFGHJKL:\"~" scancode <|>
    mapRow 0x10 "QWERTYUIOP\x7b\x7d" scancode <|>
    mapRow 0x02 "!@#$%^&*()_+" scancode
  found.getD 0

/- `is_letter`. -/
def isLetter
    (ch : UInt8) : Bool :=
  code 'a' ≤ ch && ch ≤ code 'z'

/- `extended_key_from_scancode`. -/
def extendedKeyFromScancode
    (scancode : UInt8) : KeyboardKey :=
  if scancode = 0x47 then .home
  else if scancode = 0x48 then .up
  else if scancode = 0x4b then .left
  else if scancode = 0x4d then .right
  else if scancode = 0x4f then .endKey
  else if scancode = 0x50 then .down
  else if scancode = 0x53 then .delete
  else .none

/- The flags of the driver. -/
structure Flags where
  shiftDown : Bool
  ctrlDown : Bool
  altDown : Bool
  capsLock : Bool
  extendedScancode : Bool
deriving DecidableEq, Repr

/- The flags that `keyboard_init` sets. -/
def Flags.initial : Flags where
  shiftDown := false
  ctrlDown := false
  altDown := false
  capsLock := false
  extendedScancode := false

/- `KEYBOARD_MOD_SHIFT`, `_CTRL`, `_ALT` and `_CAPS`. -/
def modShift : UInt8 := 1
def modCtrl : UInt8 := 2
def modAlt : UInt8 := 4
def modCaps : UInt8 := 8

/- `current_modifiers`. -/
def currentModifiers
    (flags : Flags) : UInt8 :=
  (if flags.shiftDown then modShift else 0) |||
    (if flags.ctrlDown then modCtrl else 0) |||
    (if flags.altDown then modAlt else 0) |||
    (if flags.capsLock then modCaps else 0)

/- The top bit of a byte says that a key was released. -/
def isReleased
    (byte : UInt8) : Bool :=
  byte &&& 0x80 != 0

/- The other bits say which key. -/
def keyCode
    (byte : UInt8) : UInt8 :=
  byte &&& 0x7f

/- The character that `keyboard_irq` gives a key. -/
def keyChar
    (flags : Flags)
    (scancode : Nat) : UInt8 :=
  let ch :=
    if isLetter (baseMap scancode) then
      if flags.shiftDown != flags.capsLock then
        shiftedMap scancode
      else
        baseMap scancode
    else if flags.shiftDown then
      shiftedMap scancode
    else
      baseMap scancode
  if flags.ctrlDown && isLetter (baseMap scancode) then
    baseMap scancode - code 'a' + 1
  else
    ch

/- A byte after the prefix, in `keyboard_irq`. -/
def handleExtended
    (flags : Flags)
    (released : Bool)
    (scancode : UInt8) :
    Flags × Option (KeyboardKey × UInt8) :=
  let flags := { flags with extendedScancode := false }
  if scancode = 0x1d then
    ({ flags with ctrlDown := !released }, .none)
  else if scancode = 0x38 then
    ({ flags with altDown := !released }, .none)
  else if released then
    (flags, .none)
  else
    let key := extendedKeyFromScancode scancode
    (flags, if key ≠ .none then some (key, 0) else .none)

/- A byte without the prefix, in `keyboard_irq`. -/
def handlePlain
    (flags : Flags)
    (released : Bool)
    (scancode : UInt8) :
    Flags × Option (KeyboardKey × UInt8) :=
  if scancode = 0x2a ∨ scancode = 0x36 then
    ({ flags with shiftDown := !released }, .none)
  else if scancode = 0x1d then
    ({ flags with ctrlDown := !released }, .none)
  else if scancode = 0x38 then
    ({ flags with altDown := !released }, .none)
  else if released then
    (flags, .none)
  else if scancode = 0x01 then
    (flags, some (.escape, 27))
  else if scancode = 0x0e then
    (flags, some (.backspace, 8))
  else if scancode = 0x0f then
    (flags, some (.tab, 9))
  else if scancode = 0x1c then
    (flags, some (.enter, 10))
  else if scancode = 0x3a then
    ({ flags with capsLock := !flags.capsLock }, .none)
  else
    let ch := keyChar flags scancode.toNat
    (flags, if ch ≠ 0 then some (.char, ch) else .none)

/-
  `keyboard_irq` for one byte: the flags after it, and the
  arguments of its call of `push_event`, if it makes one.
-/
def handleScancode
    (flags : Flags)
    (byte : UInt8) :
    Flags × Option (KeyboardKey × UInt8) :=
  if byte = 0xe0 then
    ({ flags with extendedScancode := true }, .none)
  else if flags.extendedScancode then
    handleExtended flags (isReleased byte) (keyCode byte)
  else
    handlePlain flags (isReleased byte) (keyCode byte)

/- Either the flags are as given or there is no event. -/
def Quiet
    (flags : Flags)
    (result : Flags × Option (KeyboardKey × UInt8)) : Prop :=
  result.1 = flags ∨ result.2 = .none

theorem Quiet.ite
    {flags : Flags}
    {result result' : Flags × Option (KeyboardKey × UInt8)}
    (condition : Prop)
    [Decidable condition]
    (hThen : Quiet flags result)
    (hElse : Quiet flags result') :
    Quiet flags (if condition then result else result') := by
  split
  · exact hThen
  · exact hElse

theorem handleExtended_quiet
    (flags : Flags)
    (released : Bool)
    (scancode : UInt8) :
    Quiet { flags with extendedScancode := false }
      (handleExtended flags released scancode) := by
  unfold handleExtended
  refine .ite _ (.inr rfl) ?_
  refine .ite _ (.inr rfl) ?_
  exact .ite _ (.inr rfl) (.inl rfl)

theorem handlePlain_quiet
    (flags : Flags)
    (released : Bool)
    (scancode : UInt8) :
    Quiet flags (handlePlain flags released scancode) := by
  unfold handlePlain
  refine .ite _ (.inr rfl) ?_
  refine .ite _ (.inr rfl) ?_
  refine .ite _ (.inr rfl) ?_
  refine .ite _ (.inr rfl) ?_
  refine .ite _ (.inl rfl) ?_
  refine .ite _ (.inl rfl) ?_
  refine .ite _ (.inl rfl) ?_
  refine .ite _ (.inl rfl) ?_
  exact .ite _ (.inr rfl) (.inl rfl)

/- A byte that leads to an event leaves the modifiers alone. -/
theorem handleScancode_modifiers
    {flags : Flags}
    {byte : UInt8}
    {pushed : KeyboardKey × UInt8}
    (hPushed : (handleScancode flags byte).2 = some pushed) :
    currentModifiers (handleScancode flags byte).1 =
      currentModifiers flags := by
  unfold handleScancode at *
  by_cases hPrefix : byte = 0xe0
  · rw [if_pos hPrefix] at hPushed
    cases hPushed
  · simp only [if_neg hPrefix] at hPushed ⊢
    by_cases hExtended : flags.extendedScancode = true
    · simp only [if_pos hExtended] at hPushed ⊢
      rcases handleExtended_quiet flags (isReleased byte)
        (keyCode byte) with hFlags | hNone
      · rw [hFlags]
        rfl
      · rw [hNone] at hPushed
        cases hPushed
    · simp only [if_neg hExtended] at hPushed ⊢
      rcases handlePlain_quiet flags (isReleased byte)
        (keyCode byte) with hFlags | hNone
      · rw [hFlags]
      · rw [hNone] at hPushed
        cases hPushed

end Drivers

end Whirliscope

------------------------------------------------------------
-- The Buffer
------------------------------------------------------------

namespace Whirliscope

namespace Drivers

open Ring

/- `struct keyboard_event`. -/
structure KeyboardEvent where
  key : KeyboardKey
  ch : UInt8
  modifiers : UInt8
deriving DecidableEq, Repr

/- `KEYBOARD_BUFFER_SIZE`. -/
def keyboardBufferSize : Nat := 128

/- The static variables of the driver. -/
structure Keyboard where
  readIndex : Nat
  writeIndex : Nat
  buffer : Nat → KeyboardEvent
  flags : Flags

/- The driver's variables after `keyboard_init`. -/
def keyboardInit
    (keyboard : Keyboard) : Keyboard where
  readIndex := 0
  writeIndex := 0
  buffer := keyboard.buffer
  flags := Flags.initial

/- `push_event`. -/
def pushEvent
    (keyboard : Keyboard)
    (key : KeyboardKey)
    (ch : UInt8) : Keyboard :=
  let next := (keyboard.writeIndex + 1) % keyboardBufferSize
  if next = keyboard.readIndex then
    keyboard
  else
    { keyboard with
      buffer :=
        Function.update keyboard.buffer keyboard.writeIndex
          { key := key
            ch := ch
            modifiers := currentModifiers keyboard.flags }
      writeIndex := next }

/- `keyboard_irq`, for the byte that the port holds. -/
def keyboardIrq
    (keyboard : Keyboard)
    (byte : UInt8) : Keyboard :=
  let (flags, pushed) := handleScancode keyboard.flags byte
  match pushed with
  | .none => { keyboard with flags := flags }
  | some (key, ch) =>
      pushEvent { keyboard with flags := flags } key ch

/- The event that an interrupt offers to the buffer. -/
def offeredEvent
    (keyboard : Keyboard)
    (byte : UInt8) : Option KeyboardEvent :=
  (handleScancode keyboard.flags byte).2.map
    fun (key, ch) =>
      { key := key
        ch := ch
        modifiers :=
          currentModifiers
            (handleScancode keyboard.flags byte).1 }

@[simp] theorem pushEvent_flags
    (keyboard : Keyboard)
    (key : KeyboardKey)
    (ch : UInt8) :
    (pushEvent keyboard key ch).flags = keyboard.flags := by
  unfold pushEvent
  dsimp only
  split <;> rfl

/- An interrupt leaves the decoded flags. -/
theorem keyboardIrq_flags
    (keyboard : Keyboard)
    (byte : UInt8) :
    (keyboardIrq keyboard byte).flags =
      (handleScancode keyboard.flags byte).1 := by
  rw [keyboardIrq]
  obtain ⟨flags, pushed⟩ := handleScancode keyboard.flags byte
  cases pushed with
  | none => rfl
  | some pushed => exact pushEvent_flags _ _ _

/- The events that wait to be read. -/
def Keyboard.pending
    (keyboard : Keyboard) : List KeyboardEvent :=
  queued keyboard.buffer keyboardBufferSize
    keyboard.readIndex keyboard.writeIndex

/- The indexes stay inside the buffer. -/
structure Keyboard.Indexed
    (keyboard : Keyboard) : Prop where
  readIndex : keyboard.readIndex < keyboardBufferSize
  writeIndex : keyboard.writeIndex < keyboardBufferSize

theorem keyboardInit_indexed
    (keyboard : Keyboard) :
    (keyboardInit keyboard).Indexed where
  readIndex := show 0 < 128 by decide
  writeIndex := show 0 < 128 by decide

@[simp] theorem keyboardInit_pending
    (keyboard : Keyboard) :
    (keyboardInit keyboard).pending = [] :=
  (queued_eq_nil_iff keyboard.buffer
    (keyboardInit_indexed keyboard).readIndex
    (keyboardInit_indexed keyboard).writeIndex).mpr rfl

theorem Keyboard.Indexed.pending_lt
    {keyboard : Keyboard}
    (_hIndexed : keyboard.Indexed) :
    keyboard.pending.length ≤ 127 := by
  have hAhead := ahead_lt keyboard.readIndex
    keyboard.writeIndex (by decide : 0 < keyboardBufferSize)
  rw [Keyboard.pending, queued, length_window]
  exact Nat.le_of_lt_succ hAhead

/- An event offered to the queue is dropped when it is full. -/
def offerTo
    (pending : List KeyboardEvent)
    (event : KeyboardEvent) : List KeyboardEvent :=
  if pending.length < 127 then
    pending ++ [event]
  else
    pending

/- What `push_event` does to the queue. -/
theorem Keyboard.Indexed.push
    {keyboard : Keyboard}
    (hIndexed : keyboard.Indexed)
    (key : KeyboardKey)
    (ch : UInt8) :
    (pushEvent keyboard key ch).Indexed ∧
      (pushEvent keyboard key ch).pending =
        offerTo keyboard.pending
          { key := key
            ch := ch
            modifiers := currentModifiers keyboard.flags } := by
  have hFull :=
    queued_full_iff keyboard.buffer hIndexed.readIndex
      hIndexed.writeIndex
  change _ ↔ keyboard.pending.length = 127 at hFull
  rw [pushEvent, offerTo]
  by_cases hNext :
      (keyboard.writeIndex + 1) % keyboardBufferSize =
        keyboard.readIndex
  · rw [if_pos hNext,
      if_neg (by rw [hFull.mp hNext]; decide)]
    exact ⟨hIndexed, rfl⟩
  · have hRoom : keyboard.pending.length < 127 :=
      Nat.lt_of_le_of_ne hIndexed.pending_lt
        fun hLength => hNext (hFull.mpr hLength)
    rw [if_neg hNext, if_pos hRoom]
    refine ⟨⟨hIndexed.readIndex, Nat.mod_lt _ (by decide)⟩, ?_⟩
    exact queued_push keyboard.buffer _ hIndexed.readIndex
      hIndexed.writeIndex hRoom

/- What an interrupt does to the queue. -/
theorem Keyboard.Indexed.irq
    {keyboard : Keyboard}
    (hIndexed : keyboard.Indexed)
    (byte : UInt8) :
    (keyboardIrq keyboard byte).Indexed ∧
      (keyboardIrq keyboard byte).pending =
        (offeredEvent keyboard byte).elim keyboard.pending
          (offerTo keyboard.pending) := by
  rw [keyboardIrq, offeredEvent]
  obtain ⟨flags, pushed⟩ := handleScancode keyboard.flags byte
  have hFlags : { keyboard with flags := flags }.Indexed :=
    ⟨hIndexed.readIndex, hIndexed.writeIndex⟩
  cases pushed with
  | none => exact ⟨hFlags, rfl⟩
  | some pushed => exact hFlags.push pushed.1 pushed.2

/- An event dropped by a full queue leaves every slot alone. -/
theorem Keyboard.Indexed.irq_full
    {keyboard : Keyboard}
    (hIndexed : keyboard.Indexed)
    (hFull : keyboard.pending.length = 127)
    (byte : UInt8) :
    (keyboardIrq keyboard byte).buffer = keyboard.buffer ∧
      (keyboardIrq keyboard byte).readIndex =
        keyboard.readIndex ∧
      (keyboardIrq keyboard byte).writeIndex =
        keyboard.writeIndex := by
  have hNext :=
    (queued_full_iff keyboard.buffer hIndexed.readIndex
      hIndexed.writeIndex).mpr hFull
  rw [keyboardIrq]
  obtain ⟨flags, pushed⟩ := handleScancode keyboard.flags byte
  cases pushed with
  | none => exact ⟨rfl, rfl, rfl⟩
  | some pushed =>
      simp only [pushEvent, if_pos hNext, and_self]

end Drivers

end Whirliscope
