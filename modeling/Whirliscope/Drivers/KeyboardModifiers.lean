import Mathlib.Algebra.Group.Nat.Even
import Mathlib.Data.Fintype.Basic
import Whirliscope.Drivers.Keyboard

/-
  The modifiers of the keyboard and the keys that are held.

  A stream of keys alternately pressed and released reaches
  the driver byte by byte, two bytes for an extended key. The
  two keys of a kind share one flag, which a release clears
  even while the other key is held.

  Key definitions include:
    * `PhysicalKey`, `Stroke`, `Stream`
    * `ModifierKind`, `Shows`
    * `ReleasedAlone`

  Main theorem:
    * `modifiers_right_iff`
-/

------------------------------------------------------------
-- Streams
------------------------------------------------------------

namespace Whirliscope

namespace Drivers

/-
  A key that the controller can report. The byte of one
  release would be the prefix of the extended keys.
-/
structure PhysicalKey where
  extended : Bool
  position : Fin 128
  reported : position ≠ 0x60
deriving DecidableEq

/- A key goes down or up. -/
structure Stroke where
  key : PhysicalKey
  released : Bool
deriving DecidableEq

/- The byte for a key, without the prefix. -/
def strokeByte
    (position : Fin 128)
    (released : Bool) : UInt8 :=
  UInt8.ofNat
    (if released then position + 128 else position)

/- The bytes of the controller for a stroke. -/
def Stroke.bytes
    (stroke : Stroke) : List UInt8 :=
  if stroke.key.extended then
    [0xe0, strokeByte stroke.key.position stroke.released]
  else
    [strokeByte stroke.key.position stroke.released]

def bytesOf
    (strokes : List Stroke) : List UInt8 :=
  strokes.flatMap Stroke.bytes

/- Which keys are held after a stroke. -/
def holdStroke
    (held : PhysicalKey → Bool)
    (stroke : Stroke) : PhysicalKey → Bool :=
  Function.update held stroke.key (!stroke.released)

/- Which keys are held after some strokes. -/
def heldAfter
    (strokes : List Stroke) : PhysicalKey → Bool :=
  strokes.foldl holdStroke fun _ => false

/- Every key is alternately pressed and released. -/
def alternates
    (held : PhysicalKey → Bool) : List Stroke → Bool
| [] => true
| stroke :: rest =>
    held stroke.key == stroke.released &&
      alternates (holdStroke held stroke) rest

/- A stream of strokes that starts with no key held. -/
structure Stream where
  strokes : List Stroke
  wellFormed : alternates (fun _ => false) strokes = true

/- The strokes whose bytes are among the first `count`. -/
def completed
    (count : Nat) : List Stroke → List Stroke
| [] => []
| stroke :: rest =>
    if stroke.bytes.length ≤ count then
      stroke :: completed (count - stroke.bytes.length) rest
    else
      []

/- The driver after the interrupts for some bytes. -/
def interrupts
    (keyboard : Keyboard)
    (bytes : List UInt8) : Keyboard :=
  bytes.foldl keyboardIrq keyboard

theorem bytesOf_append
    (before after : List Stroke) :
    bytesOf (before ++ after) =
      bytesOf before ++ bytesOf after :=
  List.flatMap_append

theorem heldAfter_append
    (before : List Stroke)
    (stroke : Stroke) :
    heldAfter (before ++ [stroke]) =
      holdStroke (heldAfter before) stroke := by
  rw [heldAfter, List.foldl_append]
  rfl

theorem interrupts_append
    (keyboard : Keyboard)
    (before after : List UInt8) :
    interrupts keyboard (before ++ after) =
      interrupts (interrupts keyboard before) after :=
  List.foldl_append

theorem Stroke.bytes_length_pos
    (stroke : Stroke) :
    0 < stroke.bytes.length := by
  rw [Stroke.bytes]
  split <;> exact Nat.succ_pos _

/- All bytes of some strokes complete these. -/
theorem completed_bytesOf
    (before after : List Stroke) :
    completed (bytesOf before).length (before ++ after) =
      before := by
  induction before with
  | nil =>
      cases after with
      | nil => rfl
      | cons stroke rest =>
          have hPos := stroke.bytes_length_pos
          exact if_neg (Nat.not_le.mpr hPos)
  | cons stroke rest hRest =>
      have hLength :
          (bytesOf (stroke :: rest)).length =
            stroke.bytes.length + (bytesOf rest).length := by
        rw [bytesOf, List.flatMap_cons, List.length_append]
        rfl
      rw [hLength, List.cons_append, completed,
        if_pos (by omega), Nat.add_sub_cancel_left, hRest]

/-
  The first bytes are those of the strokes they complete,
  and perhaps the prefix of the next one.
-/
theorem take_bytesOf
    (strokes : List Stroke)
    (count : Nat) :
    ∃ rest, strokes = completed count strokes ++ rest ∧
      ((bytesOf strokes).take count =
          bytesOf (completed count strokes) ∨
        (bytesOf strokes).take count =
          bytesOf (completed count strokes) ++ [0xe0]) := by
  induction strokes generalizing count with
  | nil => exact ⟨[], rfl, .inl (by simp [bytesOf, completed])⟩
  | cons stroke rest hRest =>
      have hSplit :
          bytesOf (stroke :: rest) =
            stroke.bytes ++ bytesOf rest :=
        List.flatMap_cons
      rw [completed, hSplit]
      by_cases hLength : stroke.bytes.length ≤ count
      · obtain ⟨after, hAfter, hBytes⟩ :=
          hRest (count - stroke.bytes.length)
        have hTake :
            (stroke.bytes ++ bytesOf rest).take count =
              stroke.bytes ++
                (bytesOf rest).take
                  (count - stroke.bytes.length) := by
          rw [List.take_append, List.take_of_length_le hLength]
        rw [if_pos hLength, hTake]
        refine ⟨after, congrArg (stroke :: ·) hAfter, ?_⟩
        rcases hBytes with hBytes | hBytes
        · left
          rw [hBytes]
          rfl
        · right
          rw [hBytes, ← List.append_assoc]
          rfl
      · rw [if_neg hLength]
        refine ⟨stroke :: rest, rfl, ?_⟩
        have hTake :
            (stroke.bytes ++ bytesOf rest).take count =
              stroke.bytes.take count :=
          List.take_append_of_le_length (by omega)
        rw [hTake]
        rw [Stroke.bytes] at hLength ⊢
        split at hLength
        next hExtended =>
          rw [if_pos hExtended]
          match count, hLength with
          | 0, _ => exact .inl rfl
          | 1, _ => exact .inr rfl
          | count + 2, hLength =>
              exact absurd hLength (by simp)
        next hPlain =>
          rw [if_neg hPlain]
          match count, hLength with
          | 0, _ => exact .inl rfl
          | count + 1, hLength =>
              exact absurd hLength (by simp)

end Drivers

end Whirliscope

------------------------------------------------------------
-- Flags
------------------------------------------------------------

namespace Whirliscope

namespace Drivers

/- The kinds of modifier with a key on either side. -/
inductive ModifierKind where
| shift
| ctrl
| alt
deriving DecidableEq, Repr

def ModifierKind.bit : ModifierKind → UInt8
| shift => modShift
| ctrl => modCtrl
| alt => modAlt

def ModifierKind.flag
    (flags : Flags) : ModifierKind → Bool
| shift => flags.shiftDown
| ctrl => flags.ctrlDown
| alt => flags.altDown

def ModifierKind.left : ModifierKind → PhysicalKey
| shift => ⟨false, 0x2a, by decide⟩
| ctrl => ⟨false, 0x1d, by decide⟩
| alt => ⟨false, 0x38, by decide⟩

def ModifierKind.right : ModifierKind → PhysicalKey
| shift => ⟨false, 0x36, by decide⟩
| ctrl => ⟨true, 0x1d, by decide⟩
| alt => ⟨true, 0x38, by decide⟩

def capsKey : PhysicalKey :=
  ⟨false, 0x3a, by decide⟩

theorem handlePlain_flags
    (flags : Flags)
    (released : Bool)
    (scancode : UInt8) :
    (handlePlain flags released scancode).1 =
      { shiftDown :=
          if scancode = 0x2a ∨ scancode = 0x36 then
            !released
          else
            flags.shiftDown
        ctrlDown :=
          if scancode = 0x1d then !released
          else flags.ctrlDown
        altDown :=
          if scancode = 0x38 then !released
          else flags.altDown
        capsLock :=
          if scancode = 0x3a ∧ released = false then
            !flags.capsLock
          else
            flags.capsLock
        extendedScancode := flags.extendedScancode } := by
  unfold handlePlain
  by_cases hShift : scancode = 0x2a ∨ scancode = 0x36
  · rcases hShift with rfl | rfl <;> simp
  by_cases hCtrl : scancode = 0x1d
  · subst hCtrl
    simp
  by_cases hAlt : scancode = 0x38
  · subst hAlt
    simp
  simp only [if_neg hShift, if_neg hCtrl, if_neg hAlt]
  cases released with
  | true => simp
  | false =>
      by_cases hCaps : scancode = 0x3a
      · subst hCaps
        simp
      · simp only [hCaps, false_and, if_false]
        split_ifs <;> rfl

theorem handleExtended_flags
    (flags : Flags)
    (released : Bool)
    (scancode : UInt8) :
    (handleExtended flags released scancode).1 =
      { shiftDown := flags.shiftDown
        ctrlDown :=
          if scancode = 0x1d then !released
          else flags.ctrlDown
        altDown :=
          if scancode = 0x38 then !released
          else flags.altDown
        capsLock := flags.capsLock
        extendedScancode := false } := by
  unfold handleExtended
  by_cases hCtrl : scancode = 0x1d
  · subst hCtrl
    simp
  by_cases hAlt : scancode = 0x38
  · subst hAlt
    simp
  simp only [if_neg hCtrl, if_neg hAlt]
  split_ifs <;> rfl

/- What the driver reads out of the byte of a stroke. -/
theorem strokeByte_decodes :
    ∀ position : Fin 128,
      ∀ released : Bool, position ≠ 0x60 →
        strokeByte position released ≠ 0xe0 ∧
          isReleased (strokeByte position released) =
            released ∧
          keyCode (strokeByte position released) =
            UInt8.ofNat position := by
  decide

end Drivers

end Whirliscope

------------------------------------------------------------
-- Strokes
------------------------------------------------------------

namespace Whirliscope

namespace Drivers

theorem interrupts_flags
    (keyboard : Keyboard)
    (bytes : List UInt8) :
    (interrupts keyboard bytes).flags =
      bytes.foldl (fun flags byte => (handleScancode flags byte).1)
        keyboard.flags := by
  induction bytes generalizing keyboard with
  | nil => rfl
  | cons byte rest hRest =>
      change (interrupts (keyboardIrq keyboard byte) rest).flags =
        _
      rw [hRest, keyboardIrq_flags]
      rfl

theorem position_eq_iff
    (position code : Fin 128) :
    UInt8.ofNat position = UInt8.ofNat code ↔
      position = code := by
  rw [← UInt8.toNat_inj, Fin.ext_iff]
  simp only [UInt8.toNat_ofNat']
  omega

/- A stroke sets the flag of its kind and no other. -/
structure StrokeFlags
    (stroke : Stroke)
    (flags flags' : Flags) : Prop where
  plain : flags'.extendedScancode = false
  kinds : ∀ kind : ModifierKind,
    kind.flag flags' =
      if stroke.key = kind.left ∨ stroke.key = kind.right then
        !stroke.released
      else
        kind.flag flags
  caps :
    flags'.capsLock =
      if stroke.key = capsKey ∧ stroke.released = false then
        !flags.capsLock
      else
        flags.capsLock

theorem interrupts_stroke
    (keyboard : Keyboard)
    (stroke : Stroke)
    (hPlain : keyboard.flags.extendedScancode = false) :
    StrokeFlags stroke keyboard.flags
      (interrupts keyboard stroke.bytes).flags := by
  rw [interrupts_flags]
  obtain ⟨⟨extended, position, hReported⟩, released⟩ := stroke
  obtain ⟨hByte, hReleased, hCode⟩ :=
    strokeByte_decodes position released hReported
  have hShiftLeft := position_eq_iff position 0x2a
  have hShiftRight := position_eq_iff position 0x36
  have hCtrl := position_eq_iff position 0x1d
  have hAlt := position_eq_iff position 0x38
  have hCaps := position_eq_iff position 0x3a
  cases extended with
  | false =>
      have hStep :
          (handleScancode keyboard.flags
              (strokeByte position released)).1 =
            (handlePlain keyboard.flags released
              (UInt8.ofNat position)).1 := by
        rw [handleScancode, if_neg hByte, hPlain, hReleased,
          hCode]
        rfl
      have hFlags := hStep.trans (handlePlain_flags _ _ _)
      constructor
      · exact (congrArg Flags.extendedScancode hFlags).trans
          hPlain
      · intro kind
        have hKind := congrArg kind.flag hFlags
        refine hKind.trans ?_
        cases kind <;>
          simp_all [ModifierKind.flag, ModifierKind.left,
            ModifierKind.right]
      · refine (congrArg Flags.capsLock hFlags).trans ?_
        simp_all [capsKey]
  | true =>
      have hStep :
          (handleScancode
              { keyboard.flags with extendedScancode := true }
              (strokeByte position released)).1 =
            (handleExtended
              { keyboard.flags with extendedScancode := true }
              released (UInt8.ofNat position)).1 := by
        rw [handleScancode, if_neg hByte, hReleased, hCode]
        rfl
      have hFlags := hStep.trans (handleExtended_flags _ _ _)
      constructor
      · exact congrArg Flags.extendedScancode hFlags
      · intro kind
        have hKind := congrArg kind.flag hFlags
        refine hKind.trans ?_
        cases kind <;>
          simp_all [ModifierKind.flag, ModifierKind.left,
            ModifierKind.right]
      · refine (congrArg Flags.capsLock hFlags).trans ?_
        simp [capsKey]

end Drivers

end Whirliscope

------------------------------------------------------------
-- Runs
------------------------------------------------------------

namespace Whirliscope

namespace Drivers

/- How often caps lock was pressed. -/
def capsPresses
    (strokes : List Stroke) : Nat :=
  strokes.countP fun stroke =>
    decide (stroke.key = capsKey ∧ stroke.released = false)

/- The modifiers say which keys are held. -/
structure Shows
    (strokes : List Stroke)
    (modifiers : UInt8) : Prop where
  kinds : ∀ kind : ModifierKind,
    modifiers &&& kind.bit ≠ 0 ↔
      heldAfter strokes kind.left = true ∨
        heldAfter strokes kind.right = true
  caps :
    modifiers &&& modCaps ≠ 0 ↔ Odd (capsPresses strokes)

/-
  A key of a kind is released only while the other key of the
  kind is up.
-/
def ReleasedAlone
    (strokes : List Stroke) : Prop :=
  ∀ before stroke after, strokes = before ++ stroke :: after →
    stroke.released = true → ∀ kind : ModifierKind,
      (stroke.key = kind.left →
          heldAfter before kind.right = false) ∧
        (stroke.key = kind.right →
          heldAfter before kind.left = false)

/- The driver's flags say which keys are held. -/
structure Tracks
    (strokes : List Stroke)
    (flags : Flags) : Prop where
  kinds : ∀ kind : ModifierKind,
    kind.flag flags = true ↔
      heldAfter strokes kind.left = true ∨
        heldAfter strokes kind.right = true
  caps :
    flags.capsLock = true ↔ Odd (capsPresses strokes)

theorem modifiers_contain
    (flags : Flags)
    (kind : ModifierKind) :
    currentModifiers flags &&& kind.bit ≠ 0 ↔
      kind.flag flags = true := by
  obtain ⟨shift, ctrl, alt, caps, extended⟩ := flags
  cases kind <;> cases shift <;> cases ctrl <;> cases alt <;>
    cases caps <;> cases extended <;> decide

theorem modifiers_contain_caps
    (flags : Flags) :
    currentModifiers flags &&& modCaps ≠ 0 ↔
      flags.capsLock = true := by
  obtain ⟨shift, ctrl, alt, caps, extended⟩ := flags
  cases shift <;> cases ctrl <;> cases alt <;> cases caps <;>
    cases extended <;> decide

theorem shows_iff_tracks
    (strokes : List Stroke)
    (flags : Flags) :
    Shows strokes (currentModifiers flags) ↔
      Tracks strokes flags := by
  constructor
  · rintro ⟨hKinds, hCaps⟩
    exact
      ⟨fun kind => (modifiers_contain flags kind).symm.trans
          (hKinds kind),
        (modifiers_contain_caps flags).symm.trans hCaps⟩
  · rintro ⟨hKinds, hCaps⟩
    exact
      ⟨fun kind => (modifiers_contain flags kind).trans
          (hKinds kind),
        (modifiers_contain_caps flags).trans hCaps⟩

theorem ModifierKind.left_ne_right
    (kind : ModifierKind) :
    kind.left ≠ kind.right := by
  cases kind <;> decide

theorem ReleasedAlone.of_append
    {before after : List Stroke}
    (hAlone : ReleasedAlone (before ++ after)) :
    ReleasedAlone before := by
  intro start stroke rest hSplit
  refine hAlone start stroke (rest ++ after) ?_
  rw [hSplit, List.append_assoc, List.cons_append]

theorem capsPresses_append
    (before : List Stroke)
    (stroke : Stroke) :
    capsPresses (before ++ [stroke]) =
      capsPresses before +
        if stroke.key = capsKey ∧ stroke.released = false then
          1
        else
          0 := by
  rw [capsPresses, List.countP_append, List.countP_singleton]
  simp [capsPresses]

/- Caps lock is always right. -/
theorem caps_step
    {before : List Stroke}
    {stroke : Stroke}
    {flags flags' : Flags}
    (hCaps :
      flags.capsLock = true ↔ Odd (capsPresses before))
    (hFlags : StrokeFlags stroke flags flags') :
    flags'.capsLock = true ↔
      Odd (capsPresses (before ++ [stroke])) := by
  rw [hFlags.caps, capsPresses_append]
  split
  next =>
    rw [Nat.odd_add_one, ← hCaps]
    simp
  next => exact hCaps

/- A release with no other key of its kind held is tracked. -/
theorem kind_step
    {before : List Stroke}
    {stroke : Stroke}
    {flags flags' : Flags}
    {kind : ModifierKind}
    (hKind :
      kind.flag flags = true ↔
        heldAfter before kind.left = true ∨
          heldAfter before kind.right = true)
    (hFlags : StrokeFlags stroke flags flags')
    (hAlone : ReleasedAlone (before ++ [stroke])) :
    kind.flag flags' = true ↔
      heldAfter (before ++ [stroke]) kind.left = true ∨
        heldAfter (before ++ [stroke]) kind.right = true := by
  have hLone := fun hReleased =>
    hAlone before stroke [] rfl hReleased kind
  rw [hFlags.kinds kind, heldAfter_append]
  unfold holdStroke
  by_cases hLeft : stroke.key = kind.left
  · have hOther : kind.right ≠ stroke.key :=
      hLeft ▸ kind.left_ne_right.symm
    rw [if_pos (.inl hLeft), ← hLeft, Function.update_self,
      Function.update_of_ne hOther]
    cases hReleased : stroke.released with
    | false => simp
    | true => simpa using (hLone hReleased).1 hLeft
  · by_cases hRight : stroke.key = kind.right
    · have hOther : kind.left ≠ stroke.key :=
        hRight ▸ kind.left_ne_right
      rw [if_pos (.inr hRight), ← hRight, Function.update_self,
        Function.update_of_ne hOther]
      cases hReleased : stroke.released with
      | false => simp
      | true => simpa using (hLone hReleased).2 hRight
    · rw [if_neg (not_or.mpr ⟨hLeft, hRight⟩),
        Function.update_of_ne (Ne.symm hLeft),
        Function.update_of_ne (Ne.symm hRight)]
      exact hKind

/- Between strokes the prefix is not pending. -/
theorem interrupts_plain
    (keyboard : Keyboard)
    (strokes : List Stroke) :
    (interrupts (keyboardInit keyboard)
        (bytesOf strokes)).flags.extendedScancode = false := by
  induction strokes using List.reverseRecOn with
  | nil => rfl
  | append_singleton before stroke hBefore =>
      rw [bytesOf_append, interrupts_append]
      have hFlags := interrupts_stroke _ stroke hBefore
      simpa [bytesOf] using hFlags.plain

theorem interrupts_append_stroke
    (keyboard : Keyboard)
    (before : List Stroke)
    (stroke : Stroke) :
    StrokeFlags stroke
      (interrupts (keyboardInit keyboard)
        (bytesOf before)).flags
      (interrupts (keyboardInit keyboard)
        (bytesOf (before ++ [stroke]))).flags := by
  have hFlags := interrupts_stroke _ stroke
    (interrupts_plain keyboard before)
  rw [bytesOf_append, interrupts_append]
  simpa [bytesOf] using hFlags

/- Where keys are released alone the flags stay right. -/
theorem tracks_of_releasedAlone
    (keyboard : Keyboard)
    {strokes : List Stroke}
    (hAlone : ReleasedAlone strokes) :
    Tracks strokes
      (interrupts (keyboardInit keyboard)
        (bytesOf strokes)).flags := by
  induction strokes using List.reverseRecOn with
  | nil =>
      refine ⟨fun kind => ?_, ?_⟩
      · cases kind <;>
          simp [heldAfter, bytesOf, interrupts, keyboardInit,
            Flags.initial, ModifierKind.flag]
      · simp [capsPresses, bytesOf, interrupts, keyboardInit,
          Flags.initial]
  | append_singleton before stroke hBefore =>
      have hTracks := hBefore hAlone.of_append
      have hFlags :=
        interrupts_append_stroke keyboard before stroke
      exact
        ⟨fun kind =>
            kind_step (hTracks.kinds kind) hFlags hAlone,
          caps_step hTracks.caps hFlags⟩

/- The prefix byte alone changes no modifier. -/
theorem tracks_prefix
    {strokes : List Stroke}
    {keyboard : Keyboard}
    (hTracks : Tracks strokes keyboard.flags) :
    Tracks strokes (interrupts keyboard [0xe0]).flags := by
  have hFlags :
      (interrupts keyboard [0xe0]).flags =
        { keyboard.flags with extendedScancode := true } :=
    keyboardIrq_flags keyboard 0xe0
  rw [hFlags]
  refine ⟨fun kind => ?_, hTracks.caps⟩
  have hKind := hTracks.kinds kind
  cases kind <;> exact hKind

/-
  After a release the flag is down, so it is right only if the
  other key of the kind is up.
-/
theorem releasedAlone_of_tracks
    (keyboard : Keyboard)
    {strokes : List Stroke}
    (hTracks : ∀ before after, strokes = before ++ after →
      Tracks before
        (interrupts (keyboardInit keyboard)
          (bytesOf before)).flags) :
    ReleasedAlone strokes := by
  intro before stroke after hSplit hReleased kind
  have hAfter := hTracks (before ++ [stroke]) after
    (by rw [hSplit, List.append_assoc, List.singleton_append])
  have hFlags := interrupts_append_stroke keyboard before stroke
  have hKind := hAfter.kinds kind
  rw [hFlags.kinds kind, heldAfter_append, hReleased] at hKind
  unfold holdStroke at hKind
  constructor
  · intro hLeft
    have hOther : kind.right ≠ stroke.key :=
      hLeft ▸ kind.left_ne_right.symm
    rw [if_pos (.inl hLeft),
      Function.update_of_ne hOther] at hKind
    refine Bool.eq_false_iff.mpr fun hHeld => ?_
    exact absurd (hKind.mpr (.inr hHeld)) (by decide)
  · intro hRight
    have hOther : kind.left ≠ stroke.key :=
      hRight ▸ kind.left_ne_right
    rw [if_pos (.inr hRight),
      Function.update_of_ne hOther] at hKind
    refine Bool.eq_false_iff.mpr fun hHeld => ?_
    exact absurd (hKind.mpr (.inl hHeld)) (by decide)

/- A driver gives an event the modifiers of its flags. -/
theorem offeredEvent_modifiers
    {keyboard : Keyboard}
    {byte : UInt8}
    {event : KeyboardEvent}
    (hOffered : offeredEvent keyboard byte = some event) :
    event.modifiers = currentModifiers keyboard.flags := by
  obtain ⟨pushed, hPushed, rfl⟩ :=
    Option.map_eq_some_iff.mp hOffered
  exact handleScancode_modifiers hPushed

/-
  After every interrupt of a stream the modifiers of the next
  event are right exactly when no key of a kind is released
  while the other key of the kind is held.
-/
theorem modifiers_right_iff
    (stream : Stream)
    (keyboard : Keyboard) :
    (∀ count ≤ (bytesOf stream.strokes).length,
        let driver := interrupts (keyboardInit keyboard)
          ((bytesOf stream.strokes).take count)
        Shows (completed count stream.strokes)
            (currentModifiers driver.flags) ∧
          ∀ byte event,
            offeredEvent driver byte = some event →
            event.modifiers = currentModifiers driver.flags) ↔
      ReleasedAlone stream.strokes := by
  constructor
  · intro hShows
    refine releasedAlone_of_tracks keyboard ?_
    intro before after hSplit
    have hCount :
        (bytesOf before).length ≤
          (bytesOf stream.strokes).length := by
      rw [hSplit, bytesOf_append, List.length_append]
      omega
    have hBefore := (hShows _ hCount).1
    rw [hSplit, completed_bytesOf, bytesOf_append,
      List.take_left, shows_iff_tracks] at hBefore
    exact hBefore
  · intro hAlone count _
    refine ⟨?_, fun _ _ => offeredEvent_modifiers⟩
    obtain ⟨rest, hSplit, hTake⟩ :=
      take_bytesOf stream.strokes count
    have hTracks :=
      tracks_of_releasedAlone keyboard
        (hSplit ▸ hAlone : ReleasedAlone _).of_append
    rw [shows_iff_tracks]
    rcases hTake with hTake | hTake
    · rw [hTake]
      exact hTracks
    · rw [hTake, interrupts_append]
      exact tracks_prefix hTracks

/- Both shift keys down, then the right one up. -/
def bothShifts : Stream where
  strokes :=
    [⟨ModifierKind.shift.left, false⟩,
      ⟨ModifierKind.shift.right, false⟩,
      ⟨ModifierKind.shift.right, true⟩]
  wellFormed := by decide

/- The left shift key is held, and no modifier is shown. -/
theorem held_shift_forgotten :
    bytesOf bothShifts.strokes = [0x2a, 0x36, 0xb6] ∧
      heldAfter bothShifts.strokes ModifierKind.shift.left =
        true ∧
      ∀ keyboard,
        currentModifiers
            (interrupts (keyboardInit keyboard)
              (bytesOf bothShifts.strokes)).flags &&&
          modShift = 0 := by
  refine ⟨by decide, by decide, fun keyboard => ?_⟩
  rw [interrupts_flags]
  exact (by decide :
    currentModifiers
        ((bytesOf bothShifts.strokes).foldl
          (fun flags byte => (handleScancode flags byte).1)
          Flags.initial) &&&
      modShift = 0)

end Drivers

end Whirliscope
