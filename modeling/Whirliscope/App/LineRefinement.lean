import Whirliscope.App.LineArrays

/-
  The shell's line editor refines the editor of lists.

  The driver gives the Escape key a character, and the shell
  looks at characters first, so the key does nothing and the
  line stays.

  Key definitions include:
    * `Refines`
    * `Written`, `Unwritten`
    * `EscapesEmpty`

  Main theorem:
    * `line_editor_refines_iff`
-/

------------------------------------------------------------
-- Refinement
------------------------------------------------------------

namespace Whirliscope

namespace Shell

open Drivers
open FaultProgram
open Stdio

/- The shell's state is that of the editor. -/
structure Refines
    (state : ShellState)
    (editor : Editor) : Prop where
  line : HoldsText state.line editor.line
  lineLen : state.lineLen = editor.line.val.length
  history : HistoryHolds state.history editor.history
  count : state.historyCount = editor.history.length
  cursor : state.historyCursor = editor.cursor

/- A recalled entry becomes the line. -/
theorem ensures_recall
    {state : ShellState}
    {editor : Editor}
    (hRefines : Refines state editor)
    {index : Nat}
    (hIndex : index ≤ (kept editor.submitted).length)
    (text : Text)
    (rest : List UInt8) :
    Ensures never (setLine (text.val ++ 0 :: rest))
      { state with historyCursor := index }
      fun _ final => Refines final
        { editor with
          line := text
          cursor := index
          cursorFits := hIndex } := by
  refine (ensures_setLine { state with historyCursor := index }
    text rest hRefines.line.length).mono ?_
  rintro _ _ ⟨line, actions, hLine, rfl⟩
  exact ⟨hLine, rfl, hRefines.history, hRefines.count, rfl⟩

theorem Refines.acts
    {state : ShellState}
    {editor : Editor}
    (hRefines : Refines state editor)
    (actions : List Action) :
    Refines { state with actions := actions } editor :=
  ⟨hRefines.line, hRefines.lineLen, hRefines.history,
    hRefines.count, hRefines.cursor⟩

/- The line changes, and nothing else. -/
theorem Refines.withLine
    {state : ShellState}
    {editor : Editor}
    (hRefines : Refines state editor)
    {line : List UInt8}
    {text : Text}
    (hLine : HoldsText line text) :
    Refines
      { state with
        line := line
        lineLen := text.val.length }
      { editor with line := text } :=
  ⟨hLine, rfl, hRefines.history, hRefines.count,
    hRefines.cursor⟩

theorem Refines.previous
    {state : ShellState}
    {editor : Editor}
    (hRefines : Refines state editor) :
    Ensures never historyPrevious state fun _ final =>
      Refines final editor.previous := by
  have hCount := hRefines.count
  have hCursor := hRefines.cursor
  rw [historyPrevious, ensures_bind_iff, ensures_get_iff,
    Editor.previous]
  by_cases hEmpty : editor.history = []
  · rw [if_pos hEmpty, if_pos (by rw [hCount, hEmpty]; rfl),
      ensures_pure_iff]
    exact hRefines
  · have hPos : 0 < editor.history.length :=
      List.length_pos_iff.mpr hEmpty
    have hStep :
        (if state.historyCursor > 0 then
            state.historyCursor - 1
          else
            state.historyCursor) =
          editor.cursor - 1 := by
      split <;> omega
    have hFits :
        editor.cursor ≤ editor.history.length :=
      editor.cursorFits
    have hIndex :
        editor.cursor - 1 < editor.history.length := by
      omega
    have hEntry :
        editor.history[editor.cursor - 1]? =
          some (editor.entry (editor.cursor - 1)) := by
      rw [Editor.entry, List.getElem?_eq_getElem hIndex]
      rfl
    obtain ⟨buffer, hBuffer, hText⟩ :=
      hRefines.history.holds _ _ hEntry
    obtain ⟨rest, hRest⟩ := hText.chars
    rw [if_neg hEmpty, if_neg (by omega), hStep]
    simp only [ensures_bind_iff, ensures_setCursor_iff]
    refine ensures_historyAt hBuffer ?_
    rw [hRest]
    exact ensures_recall hRefines _ _ rest

theorem Refines.next
    {state : ShellState}
    {editor : Editor}
    (hRefines : Refines state editor) :
    Ensures never historyNext state fun _ final =>
      Refines final editor.next := by
  have hCount := hRefines.count
  have hCursor := hRefines.cursor
  rw [historyNext, ensures_bind_iff, ensures_get_iff,
    Editor.next]
  by_cases hNewer : editor.cursor < editor.history.length
  · rw [dif_pos hNewer, if_neg (by omega)]
    simp only [ensures_bind_iff, ensures_setCursor_iff]
    have hLastIff :
        state.historyCursor + 1 = state.historyCount ↔
          editor.cursor + 1 = editor.history.length := by
      omega
    rw [hCursor] at hLastIff ⊢
    by_cases hLast :
        editor.cursor + 1 = editor.history.length
    · rw [if_pos (hLastIff.mpr hLast)]
      have hEmpty :
          editor.entry (editor.cursor + 1) = Text.empty := by
        rw [Editor.entry, hLast,
          List.getElem?_eq_none (Nat.le_refl _)]
        rfl
      rw [hEmpty]
      exact ensures_recall hRefines _ Text.empty []
    · rw [if_neg fun hEnd => hLast (hLastIff.mp hEnd)]
      have hIndex :
          editor.cursor + 1 < editor.history.length := by
        omega
      have hEntry :
          editor.history[editor.cursor + 1]? =
            some (editor.entry (editor.cursor + 1)) := by
        rw [Editor.entry, List.getElem?_eq_getElem hIndex]
        rfl
      obtain ⟨buffer, hBuffer, hText⟩ :=
        hRefines.history.holds _ _ hEntry
      obtain ⟨rest, hRest⟩ := hText.chars
      rw [ensures_bind_iff]
      refine ensures_historyAt hBuffer ?_
      rw [hRest]
      exact ensures_recall hRefines _ _ rest
  · rw [dif_neg hNewer, if_pos (by omega), ensures_pure_iff]
    exact hRefines

theorem Refines.backspace
    {state : ShellState}
    {editor : Editor}
    (hRefines : Refines state editor) :
    Ensures never handleBackspace state fun _ final =>
      Refines final (editor.apply .backspace) := by
  have hFits := editor.line.property.1
  have hLine := hRefines.line
  rw [handleBackspace, ensures_bind_iff, ensures_get_iff,
    hRefines.lineLen]
  by_cases hSome : editor.line.val.length > 0
  · have hLength :
        editor.line.dropLast.val.length =
          editor.line.val.length - 1 :=
      List.length_dropLast
    have hIndex :
        editor.line.val.length - 1 < state.line.length := by
      rw [hLine.length]
      exact Nat.lt_of_le_of_lt (Nat.sub_le _ _) hFits
    have hTake :
        state.line.take editor.line.dropLast.val.length =
          editor.line.dropLast.val := by
      have hWhole := congrArg List.dropLast hLine.take
      rw [List.dropLast_take (by
        rw [hLine.length]
        exact hFits)] at hWhole
      rw [hLength]
      exact hWhole
    have hSet := holdsText_set hLine.length hTake
    rw [hLength] at hSet
    rw [if_pos hSome, ensures_bind_iff, ensures_setLineLen_iff,
      ensures_bind_iff]
    refine ensures_writeLine hIndex ?_
    rw [ensures_bind_iff, ensures_act_iff, ensures_pure_iff]
    have hNext := hRefines.withLine hSet
    rw [hLength] at hNext
    exact hNext.acts _
  · have hEmpty : editor.line.val = [] :=
      List.length_eq_zero_iff.mp (by omega)
    have hSame : editor.line.dropLast = editor.line :=
      Subtype.ext (by
        change editor.line.val.dropLast = editor.line.val
        rw [hEmpty]
        rfl)
    rw [if_neg hSome, ensures_pure_iff, Editor.apply, hSame]
    exact hRefines

theorem Refines.text
    {state : ShellState}
    {editor : Editor}
    (hRefines : Refines state editor)
    {ch : UInt8}
    (hText : ¬ ch < code ' ') :
    Ensures never (handleText ch) state fun _ final =>
      Refines final (editor.apply (.insert ch)) := by
  have hLine := hRefines.line
  have hChar : ch ≠ 0 := by
    rintro rfl
    exact hText (by decide)
  rw [handleText, ensures_bind_iff, ensures_get_iff,
    hRefines.lineLen, Editor.apply]
  by_cases hRoom : editor.line.val.length + 1 < lineSize
  · have hInsert :
        (editor.line.insert ch).val =
          editor.line.val ++ [ch] := by
      rw [Text.insert, dif_pos ⟨hRoom, hChar⟩]
    have hIndex :
        editor.line.val.length < state.line.length := by
      rw [hLine.length]
      exact Nat.lt_of_succ_lt hRoom
    have hLength :
        (editor.line.insert ch).val.length =
          editor.line.val.length + 1 := by
      rw [hInsert, List.length_append, List.length_singleton]
    have hTake :
        (state.line.set editor.line.val.length ch).take
            (editor.line.insert ch).val.length =
          (editor.line.insert ch).val := by
      rw [hLength, hInsert, List.take_add_one,
        List.take_set_of_le (Nat.le_refl _), hLine.take,
        List.getElem?_set_self hIndex]
      rfl
    have hSized :
        (state.line.set editor.line.val.length ch).length =
          lineSize := by
      rw [List.length_set, hLine.length]
    have hSet := holdsText_set hSized hTake
    have hNext := hRefines.withLine hSet
    rw [hLength] at hNext
    rw [if_neg (not_or.mpr ⟨hText, Nat.not_le.mpr hRoom⟩),
      ensures_bind_iff]
    refine ensures_writeLine hIndex ?_
    rw [ensures_bind_iff, ensures_setLineLen_iff,
      ensures_bind_iff]
    refine ensures_writeLine (hSized.symm ▸ hRoom) ?_
    rw [ensures_bind_iff, ensures_act_iff, ensures_pure_iff]
    exact hNext.acts _
  · have hSame : editor.line.insert ch = editor.line :=
      dif_neg fun hBoth => hRoom hBoth.1
    rw [if_pos (.inr (Nat.le_of_not_lt hRoom)),
      ensures_pure_iff, hSame]
    exact hRefines

/- Emptying the line, whatever is printed around it. -/
theorem Refines.emptied
    {state : ShellState}
    {editor : Editor}
    (hRefines : Refines state editor) :
    Refines
      { state with
        line := state.line.set 0 0
        lineLen := 0 }
      { editor with line := Text.empty } :=
  hRefines.withLine (holdsText_empty hRefines.line.length)

theorem Refines.line_pos
    {state : ShellState}
    {editor : Editor}
    (hRefines : Refines state editor) :
    0 < state.line.length := by
  rw [hRefines.line.length]
  decide

theorem Refines.interrupt
    {state : ShellState}
    {editor : Editor}
    (hRefines : Refines state editor) :
    Ensures never handleInterrupt state fun _ final =>
      Refines final (editor.apply .clear) := by
  rw [handleInterrupt, ensures_bind_iff, ensures_act_iff,
    ensures_bind_iff, ensures_setLineLen_iff, ensures_bind_iff]
  refine ensures_writeLine hRefines.line_pos ?_
  rw [ensures_bind_iff, prompt, ensures_act_iff,
    ensures_pure_iff]
  exact hRefines.emptied.acts _

theorem Refines.redraw
    {state : ShellState}
    {editor : Editor}
    (hRefines : Refines state editor) :
    Ensures never handleRedraw state fun _ final =>
      Refines final editor := by
  rw [handleRedraw, ensures_bind_iff, ensures_act_iff,
    ensures_bind_iff, prompt, ensures_act_iff,
    ensures_bind_iff, ensures_get_iff, ensures_ite_iff]
  constructor
  · intro _
    simp only [ensures_bind_iff, ensures_lift_iff,
      hRefines.line.cString, yields_ok_iff, ensures_act_iff,
      ensures_pure_iff]
    exact hRefines.acts _
  · intro _
    rw [ensures_pure_iff]
    exact hRefines.acts _

/- What a command does to the history. -/
theorem Refines.command
    {state : ShellState}
    {editor : Editor}
    (hRefines : Refines state editor)
    (commands : Commands)
    {input : List UInt8}
    {text : Text}
    (hInput : HoldsText input text)
    (hEditor : editor.line = Text.empty) :
    Ensures never (runCommand commands input) state
      fun _ final =>
        Refines final { editor with line := text }.submit := by
  rw [runCommand, ensures_bind_iff, ensures_lift_iff,
    hInput.cString, yields_ok_iff, Editor.submit]
  have hTrim :
      trimRight (skipSpaces text.val) = text.trim.val :=
    rfl
  by_cases hBlank : text.trim.val = []
  · simp only [hTrim, hBlank, if_true, ensures_pure_iff]
    rw [← hEditor]
    exact hRefines
  · simp only [hTrim, hBlank, if_false, ensures_bind_iff]
    refine (ensures_pushHistory hRefines.history hRefines.count
      (kept_length _) hBlank).mono ?_
    rintro _ _ ⟨history, hHistory, rfl⟩
    rw [Editor.history, ← kept_snoc] at hHistory ⊢
    have hNext :
        Refines
          { state with
            history := history
            historyCount :=
              (kept (editor.submitted ++ [text.trim])).length
            historyCursor :=
              (kept (editor.submitted ++ [text.trim])).length }
          { line := Text.empty
            submitted := editor.submitted ++ [text.trim]
            cursor :=
              (kept (editor.submitted ++ [text.trim])).length
            cursorFits := Nat.le_refl _ } :=
      ⟨hEditor ▸ hRefines.line, hEditor ▸ hRefines.lineLen,
        hHistory, rfl, rfl⟩
    cases splitCommand text.trim.val with
    | none =>
        rw [ensures_pure_iff]
        exact hNext
    | some words =>
        simp only [ensures_bind_iff, ensures_act_iff,
          ensures_pure_iff]
        exact hNext.acts _

theorem Refines.newline
    {state : ShellState}
    {editor : Editor}
    (hRefines : Refines state editor)
    (commands : Commands) :
    Ensures never (handleNewline commands) state fun _ final =>
      Refines final (editor.apply .submit) := by
  have hFits := editor.line.property.1
  have hLine := hRefines.line
  have hEnded := holdsText_set hLine.length hLine.take
  obtain ⟨rest, hRest⟩ := hEnded.chars
  have hStack :
      (List.replicate lineSize (0 : UInt8)).length =
        lineSize :=
    List.length_replicate
  obtain ⟨copy, hCopied, hCopy⟩ :=
    strcpy_text hStack editor.line rest
  rw [handleNewline, ensures_bind_iff, ensures_act_iff,
    ensures_bind_iff, ensures_get_iff, ensures_bind_iff,
    hRefines.lineLen]
  refine ensures_writeLine (by rwa [hLine.length]) ?_
  simp only [ensures_bind_iff, ensures_get_iff,
    ensures_lift_iff, hRest, hCopied, yields_ok_iff,
    ensures_setLineLen_iff]
  rw [← hRest]
  refine ensures_writeLine ?_ ?_
  · rw [List.length_set]
    exact hRefines.line_pos
  have hEmptied :
      Refines
        { state with
          line :=
            (state.line.set editor.line.val.length 0).set 0 0
          lineLen := 0
          actions :=
            state.actions ++ [.print [code '\n']] }
        { editor with line := Text.empty } :=
    (hRefines.withLine (holdsText_empty hEnded.length)).acts _
  refine (hEmptied.command commands hCopy rfl).mono ?_
  intro answer final hFinal
  rw [ensures_ite_iff]
  constructor
  · intro _
    rw [ensures_pure_iff]
    exact hFinal
  · intro _
    rw [ensures_bind_iff, prompt, ensures_act_iff,
      ensures_pure_iff]
    exact hFinal.acts _

end Shell

end Whirliscope

------------------------------------------------------------
-- Events
------------------------------------------------------------

namespace Whirliscope

namespace Shell

open Drivers
open FaultProgram
open Stdio

/- The indexes of the history stay in their bounds. -/
theorem Refines.bounds
    {state : ShellState}
    {editor : Editor}
    (hRefines : Refines state editor) :
    state.historyCursor ≤ state.historyCount ∧
      state.historyCount ≤ historySize := by
  rw [hRefines.cursor, hRefines.count]
  exact ⟨editor.cursorFits, kept_length _⟩

/- Every event that a result has is of a kind. -/
def Offers
    (kind : KeyboardKey → UInt8 → Prop)
    (result : Flags × Option (KeyboardKey × UInt8)) : Prop :=
  ∀ key ch, result.2 = some (key, ch) → kind key ch

theorem Offers.ite
    {kind : KeyboardKey → UInt8 → Prop}
    {result result' : Flags × Option (KeyboardKey × UInt8)}
    (condition : Prop)
    [Decidable condition]
    (hThen : Offers kind result)
    (hElse : Offers kind result') :
    Offers kind (if condition then result else result') := by
  split
  · exact hThen
  · exact hElse

theorem offers_none
    (kind : KeyboardKey → UInt8 → Prop)
    (flags : Flags) :
    Offers kind (flags, none) :=
  fun _ _ hNone => nomatch hNone

theorem offers_some
    {kind : KeyboardKey → UInt8 → Prop}
    {key : KeyboardKey}
    {ch : UInt8}
    (flags : Flags)
    (hKind : kind key ch) :
    Offers kind (flags, some (key, ch)) := by
  intro _ _ hSome
  cases hSome
  exact hKind

/- Events with a character; Escape has one too. -/
def Written
    (key : KeyboardKey)
    (ch : UInt8) : Prop :=
  ch ≠ 0 ∧ (key = .escape → ch = 27) ∧
    key ≠ .up ∧ key ≠ .down

/- Events without a character. -/
def Unwritten
    (key : KeyboardKey)
    (ch : UInt8) : Prop :=
  ch = 0 ∧ key ≠ .escape

theorem handlePlain_offers
    (flags : Flags)
    (released : Bool)
    (scancode : UInt8) :
    Offers Written (handlePlain flags released scancode) := by
  unfold handlePlain
  refine .ite _ (offers_none _ _) ?_
  refine .ite _ (offers_none _ _) ?_
  refine .ite _ (offers_none _ _) ?_
  refine .ite _ (offers_none _ _) ?_
  refine .ite _ (offers_some _ ?_) ?_
  · exact ⟨by decide, fun _ => rfl, nofun, nofun⟩
  refine .ite _ (offers_some _ ?_) ?_
  · exact ⟨by decide, nofun, nofun, nofun⟩
  refine .ite _ (offers_some _ ?_) ?_
  · exact ⟨by decide, nofun, nofun, nofun⟩
  refine .ite _ (offers_some _ ?_) ?_
  · exact ⟨by decide, nofun, nofun, nofun⟩
  refine .ite _ (offers_none _ _) ?_
  intro key ch hSome
  by_cases hChar : keyChar flags scancode.toNat ≠ 0
  · simp only [if_pos hChar] at hSome
    cases hSome
    exact ⟨hChar, nofun, nofun, nofun⟩
  · simp only [if_neg hChar] at hSome
    cases hSome

theorem extendedKeyFromScancode_ne_escape
    (scancode : UInt8) :
    extendedKeyFromScancode scancode ≠ .escape := by
  unfold extendedKeyFromScancode
  repeat' split
  all_goals exact nofun

theorem handleExtended_offers
    (flags : Flags)
    (released : Bool)
    (scancode : UInt8) :
    Offers Unwritten
      (handleExtended flags released scancode) := by
  unfold handleExtended
  refine .ite _ (offers_none _ _) ?_
  refine .ite _ (offers_none _ _) ?_
  refine .ite _ (offers_none _ _) ?_
  intro key ch hSome
  by_cases hKey : extendedKeyFromScancode scancode ≠ .none
  · simp only [if_pos hKey] at hSome
    cases hSome
    exact ⟨rfl, extendedKeyFromScancode_ne_escape scancode⟩
  · simp only [if_neg hKey] at hSome
    cases hSome

theorem DriverEvent.written
    (driver : DriverEvent) :
    Written driver.event.key driver.event.ch ∨
      Unwritten driver.event.key driver.event.ch := by
  obtain ⟨flags, byte, hEnqueued⟩ := driver.enqueued
  rw [handleScancode] at hEnqueued
  split at hEnqueued
  next => cases hEnqueued
  next =>
    split at hEnqueued
    next =>
      exact .inr (handleExtended_offers _ _ _ _ _ hEnqueued)
    next =>
      exact .inl (handlePlain_offers _ _ _ _ _ hEnqueued)

/- The character of the Escape key is ignored. -/
theorem ensures_escape
    (commands : Commands)
    {event : InputEvent}
    (hEscape : event.ch = 27)
    (state : ShellState) :
    Ensures never (handleEvent commands event) state
      fun _ final => final = state := by
  rw [handleEvent, hEscape, if_pos (by decide), handleChar,
    if_neg (by decide), if_neg (by decide),
    if_neg (by decide), if_neg (by decide), handleText,
    ensures_bind_iff, ensures_get_iff, if_pos (.inl (by decide)),
    ensures_pure_iff]

/- A character does to the line what its key is for. -/
theorem Refines.char
    {state : ShellState}
    {editor : Editor}
    (hRefines : Refines state editor)
    (commands : Commands)
    {event : InputEvent}
    (hEscape : event.key ≠ .escape)
    (hUp : event.key ≠ .up)
    (hDown : event.key ≠ .down) :
    Ensures never (handleChar commands event.ch) state
      fun _ final =>
        Refines final (editor.apply (meaning event)) := by
  have hMeaning :
      meaning event =
        if event.ch = 8 then .backspace
        else if event.ch = code '\n' then .submit
        else if event.ch = 3 then .clear
        else if event.ch < code ' ' then .nothing
        else .insert event.ch := by
    unfold meaning
    split
    · exact absurd ‹_› hEscape
    · exact absurd ‹_› hUp
    · exact absurd ‹_› hDown
    · rfl
  rw [hMeaning, handleChar]
  by_cases hBackspace : event.ch = 8
  · rw [if_pos hBackspace, if_pos hBackspace]
    exact hRefines.backspace
  rw [if_neg hBackspace, if_neg hBackspace]
  by_cases hNewline : event.ch = code '\n'
  · rw [if_pos hNewline, if_pos hNewline]
    exact hRefines.newline commands
  rw [if_neg hNewline, if_neg hNewline]
  by_cases hInterrupt : event.ch = 3
  · rw [if_pos hInterrupt, if_pos hInterrupt]
    exact hRefines.interrupt
  rw [if_neg hInterrupt, if_neg hInterrupt]
  by_cases hRedraw : event.ch = 12
  · rw [if_pos hRedraw, hRedraw, if_pos (by decide)]
    exact hRefines.redraw
  rw [if_neg hRedraw]
  by_cases hControl : event.ch < code ' '
  · rw [if_pos hControl, handleText, ensures_bind_iff,
      ensures_get_iff, if_pos (.inl hControl),
      ensures_pure_iff]
    exact hRefines
  · rw [if_neg hControl]
    exact hRefines.text hControl

/- One event, with Escape on an empty line only. -/
theorem Refines.event
    {state : ShellState}
    {editor : Editor}
    (hRefines : Refines state editor)
    (driver : DriverEvent)
    (commands : Commands)
    (hEscape :
      driver.event.key = .escape → editor.line.val = []) :
    Ensures never (handleEvent commands driver.event) state
      fun _ final =>
        Refines final
          (editor.apply (meaning driver.event)) := by
  rcases driver.written with hWritten | hUnwritten
  · obtain ⟨hChar, hCode, hUp, hDown⟩ := hWritten
    by_cases hKey : driver.event.key = .escape
    · -- nothing happens, and the line was empty
      refine (ensures_escape commands (hCode hKey)
        state).mono ?_
      rintro _ final rfl
      have hSame :
          { editor with line := Text.empty } = editor := by
        have hLine : editor.line = Text.empty :=
          Subtype.ext (hEscape hKey)
        rw [← hLine]
      rw [meaning, hKey, Editor.apply, hSame]
      exact hRefines
    · rw [handleEvent, if_pos hChar]
      exact hRefines.char commands hKey hUp hDown
  · obtain ⟨hNoChar, hKey⟩ := hUnwritten
    rw [handleEvent, if_neg (not_not.mpr hNoChar),
      ensures_bind_iff]
    simp only [ensures_pure_iff]
    have hMeaning :
        driver.event.key ≠ .up → driver.event.key ≠ .down →
          meaning driver.event = .nothing := by
      intro hUp hDown
      unfold meaning
      split
      · exact absurd ‹_› hKey
      · exact absurd ‹_› hUp
      · exact absurd ‹_› hDown
      · rw [hNoChar]
        rfl
    unfold handleKey
    split
    next hUp =>
      rw [meaning, hUp]
      exact hRefines.previous
    next hDown =>
      rw [meaning, hDown]
      exact hRefines.next
    next hIsEscape => exact absurd hIsEscape hKey
    next hUp hDown _ =>
      rw [ensures_pure_iff, hMeaning hUp hDown]
      exact hRefines

end Shell

end Whirliscope

------------------------------------------------------------
-- Runs
------------------------------------------------------------

namespace Whirliscope

namespace Shell

open Drivers
open FaultProgram
open Stdio

/- Escape is pressed only while the line is empty. -/
def EscapesEmpty
    (events : List Delivery) : Prop :=
  ∀ before driver commands after,
    events = before ++ (driver, commands) :: after →
      driver.event.key = .escape →
        (editorAfter before).line.val = []

theorem refines_boot :
    Refines ShellState.boot Editor.empty where
  line := ⟨rfl, List.replicate 127 0, rfl⟩
  lineLen := rfl
  history := by
    refine ⟨rfl, ?_, nofun⟩
    intro buffer hBuffer
    rw [List.eq_of_mem_replicate hBuffer]
    rfl
  count := rfl
  cursor := rfl

theorem shellAfterDriver_snoc
    (before : List Delivery)
    (driver : DriverEvent)
    (commands : Commands) :
    shellAfterDriver (before ++ [(driver, commands)]) = do
      let state ← shellAfterDriver before
      let (_, next) ←
        (handleEvent commands driver.event).run state
      return next := by
  rw [shellAfterDriver, shellAfter, List.map_append,
    List.foldlM_append]
  simp only [List.map_cons, List.map_nil, List.foldlM_cons,
    List.foldlM_nil, bind_pure]
  rfl

theorem editorAfter_snoc
    (before : List Delivery)
    (driver : DriverEvent)
    (commands : Commands) :
    editorAfter (before ++ [(driver, commands)]) =
      (editorAfter before).apply (meaning driver.event) := by
  rw [editorAfter, List.foldl_append]
  rfl

/- A step of the shell that ensures a result takes place. -/
theorem shellAfterDriver_step
    {before : List Delivery}
    {driver : DriverEvent}
    {commands : Commands}
    {state : ShellState}
    {post : Int → ShellState → Prop}
    (hBefore : shellAfterDriver before = .ok state)
    (hStep :
      Ensures never (handleEvent commands driver.event) state
        post) :
    ∃ answer next,
      shellAfterDriver (before ++ [(driver, commands)]) =
          .ok next ∧
        post answer next := by
  obtain ⟨answer, next, hReturns, hPost⟩ :=
    hStep.exists_returns
  refine ⟨answer, next, ?_, hPost⟩
  rw [shellAfterDriver_snoc, hBefore]
  change (do
      let (_, next) ←
        (handleEvent commands driver.event).run state
      return next) = _
  rw [hReturns]
  rfl

theorem EscapesEmpty.of_append
    {before after : List Delivery}
    (hEscapes : EscapesEmpty (before ++ after)) :
    EscapesEmpty before := by
  intro start driver commands rest hSplit
  refine hEscapes start driver commands (rest ++ after) ?_
  rw [hSplit, List.append_assoc, List.cons_append]

/- Runs in which Escape finds the line empty. -/
theorem refines_of_escapesEmpty
    {events : List Delivery}
    (hEscapes : EscapesEmpty events) :
    ∃ state, shellAfterDriver events = .ok state ∧
      Refines state (editorAfter events) := by
  induction events using List.reverseRecOn with
  | nil => exact ⟨ShellState.boot, rfl, refines_boot⟩
  | append_singleton before delivery hBefore =>
      obtain ⟨driver, commands⟩ := delivery
      obtain ⟨state, hState, hRefines⟩ :=
        hBefore hEscapes.of_append
      have hStep := hRefines.event driver commands
        (hEscapes before driver commands [] rfl)
      obtain ⟨answer, next, hNext, hRefined⟩ :=
        shellAfterDriver_step hState hStep
      rw [editorAfter_snoc]
      exact ⟨next, hNext, hRefined⟩

/- Escape leaves a line that is not empty as it is. -/
theorem escape_line_empty
    {before : List Delivery}
    {driver : DriverEvent}
    {commands : Commands}
    {state next : ShellState}
    (hEscape : driver.event.key = .escape)
    (hState : shellAfterDriver before = .ok state)
    (hRefines : Refines state (editorAfter before))
    (hNext :
      shellAfterDriver (before ++ [(driver, commands)]) =
        .ok next)
    (hRefined :
      Refines next
        (editorAfter (before ++ [(driver, commands)]))) :
    (editorAfter before).line.val = [] := by
  have hCode : driver.event.ch = 27 := by
    rcases driver.written with hWritten | hUnwritten
    · exact hWritten.2.1 hEscape
    · exact absurd hEscape hUnwritten.2
  obtain ⟨answer, next', hNext', hSame⟩ :=
    shellAfterDriver_step hState
      (ensures_escape commands hCode state)
  rw [hNext, Except.ok.injEq] at hNext'
  have hLength := hRefined.lineLen
  rw [hNext', hSame, hRefines.lineLen, editorAfter_snoc,
    meaning, hEscape] at hLength
  exact List.length_eq_zero_iff.mp hLength

/-
  The shell follows the editor through a whole run exactly
  when Escape is pressed on an empty line only.
-/
theorem line_editor_refines_iff
    (events : List Delivery) :
    (∀ before after, events = before ++ after →
        ∃ state, shellAfterDriver before = .ok state ∧
          Refines state (editorAfter before)) ↔
      EscapesEmpty events := by
  constructor
  · intro hRefines before driver commands after hSplit hEscape
    obtain ⟨state, hState, hBefore⟩ :=
      hRefines before _ hSplit
    obtain ⟨next, hNext, hAfter⟩ :=
      hRefines (before ++ [(driver, commands)]) after (by
        rw [hSplit, List.append_assoc, List.singleton_append])
    exact escape_line_empty hEscape hState hBefore hNext hAfter
  · rintro hEscapes before after rfl
    exact refines_of_escapesEmpty hEscapes.of_append

/- The key that types an a, and the Escape key. -/
def typedA : DriverEvent where
  event := ⟨.char, 97⟩
  enqueued := ⟨Flags.initial, 0x1e, by decide⟩

def typedEscape : DriverEvent where
  event := ⟨.escape, 27⟩
  enqueued := ⟨Flags.initial, 0x01, by decide⟩

/- Escape leaves the a in the line. -/
theorem escape_keeps_line :
    let events : List Delivery :=
      [(typedA, fun _ _ => []), (typedEscape, fun _ _ => [])]
    (editorAfter events).line.val = [] ∧
      (shellAfterDriver events).toOption.map (·.line.take 2) =
        some [97, 0] ∧
      ∀ state, shellAfterDriver events = .ok state →
        ¬ Refines state (editorAfter events) := by
  intro events
  have hLine :
      (shellAfterDriver events).toOption.map (·.lineLen) =
        some 1 := by
    decide +kernel
  refine ⟨by decide, by decide +kernel, ?_⟩
  intro state hState hRefines
  rw [hState] at hLine
  have hLength : state.lineLen = 1 := Option.some.inj hLine
  rw [hRefines.lineLen] at hLength
  exact absurd hLength (by decide)

end Shell

end Whirliscope
