import Whirliscope.App.LineEditor

/-
  Texts in the arrays of the shell.

  A text in an array ends with a NUL, and the rest of the
  array is of no interest. The history is a list of such
  arrays, of which the first hold its entries.

  Key definitions include:
    * `HoldsText`, `HistoryHolds`

  Main theorems:
    * `ensures_setLine`
    * `ensures_pushHistory`
-/

------------------------------------------------------------
-- Strings in Arrays
------------------------------------------------------------

namespace Whirliscope

namespace Shell

/- An array of the shell holds a text. -/
structure HoldsText
    (buffer : List UInt8)
    (text : Text) : Prop where
  length : buffer.length = lineSize
  chars : ∃ rest, buffer = text.val ++ 0 :: rest

theorem cString_append
    {chars : List UInt8}
    (hChars : 0 ∉ chars)
    (rest : List UInt8) :
    cString (chars ++ 0 :: rest) = .ok chars := by
  induction chars with
  | nil => rfl
  | cons ch chars hRest =>
      obtain ⟨hFirst, hChars⟩ :=
        List.ne_and_not_mem_of_not_mem_cons hChars
      rw [List.cons_append, cString, if_neg (Ne.symm hFirst),
        hRest hChars]
      rfl

theorem HoldsText.cString
    {buffer : List UInt8}
    {text : Text}
    (hHolds : HoldsText buffer text) :
    Shell.cString buffer = .ok text.val := by
  obtain ⟨rest, hRest⟩ := hHolds.chars
  rw [hRest]
  exact cString_append text.property.2 rest

/- The NUL of a text is inside its array. -/
theorem strcpy_text
    {dest : List UInt8}
    (hDest : dest.length = lineSize)
    (text : Text)
    (rest : List UInt8) :
    ∃ copy,
      strcpy dest (text.val ++ 0 :: rest) = .ok copy ∧
        HoldsText copy text := by
  have hFits := text.property.1
  refine ⟨text.val ++ 0 :: dest.drop (text.val.length + 1),
    ?_, ?_, ?_⟩
  · rw [strcpy, cString_append text.property.2]
    change (if text.val.length < dest.length then _ else _) = _
    rw [if_pos (by rwa [hDest])]
    rfl
  · rw [List.length_append, List.length_cons, List.length_drop]
    omega
  · exact ⟨_, rfl⟩

/- Strings compare equal exactly when they are. -/
theorem strcmp_text
    (chars other : List UInt8)
    (hChars : 0 ∉ chars)
    (hOther : 0 ∉ other)
    (rest rest' : List UInt8) :
    ∃ order,
      strcmp (chars ++ 0 :: rest) (other ++ 0 :: rest') =
          .ok order ∧
        (order = 0 ↔ chars = other) := by
  induction chars generalizing other with
  | nil =>
      cases other with
      | nil => exact ⟨0, rfl, by simp⟩
      | cons ch other =>
          have hCh : (0 : UInt8) ≠ ch :=
            List.ne_of_not_mem_cons hOther
          refine ⟨_, if_neg (by simp), ?_⟩
          have hNe : ch.toNat ≠ 0 := fun hZero =>
            hCh (UInt8.toNat_inj.mp hZero.symm)
          refine iff_of_false ?_ (by simp)
          change ¬ ((0 : Nat) : Int) - ch.toNat = 0
          omega
  | cons ch chars hRest =>
      obtain ⟨hCh, hChars⟩ :=
        List.ne_and_not_mem_of_not_mem_cons hChars
      cases other with
      | nil =>
          refine ⟨_, if_neg (by simp [Ne.symm hCh]), ?_⟩
          have hNe : ch.toNat ≠ 0 := fun hZero =>
            hCh (UInt8.toNat_inj.mp hZero.symm)
          refine iff_of_false ?_ (by simp)
          change ¬ (ch.toNat : Int) - (0 : Nat) = 0
          omega
      | cons ch' other =>
          have hOther := List.not_mem_of_not_mem_cons hOther
          by_cases hSame : ch = ch'
          · obtain ⟨order, hOrder, hIff⟩ :=
              hRest other hChars hOther
            refine ⟨order, ?_, ?_⟩
            · rw [List.cons_append, List.cons_append, strcmp,
                if_pos ⟨Ne.symm hCh, hSame⟩, hOrder]
            · rw [hIff, hSame, List.cons_inj_right]
          · refine ⟨_, if_neg fun hBoth => hSame hBoth.2, ?_⟩
            refine iff_of_false ?_ fun hEqual =>
              hSame (List.cons.inj hEqual).1
            have hNe : ch.toNat ≠ ch'.toNat := fun hEqual =>
              hSame (UInt8.toNat_inj.mp hEqual)
            change ¬ (ch.toNat : Int) - ch'.toNat = 0
            omega

theorem writeAt_of_lt
    {buffer : List UInt8}
    {index : Nat}
    (hIndex : index < buffer.length)
    (ch : UInt8) :
    writeAt buffer index ch = .ok (buffer.set index ch) :=
  if_pos hIndex

/- A NUL after the characters of a text ends it. -/
theorem holdsText_set
    {buffer : List UInt8}
    {text : Text}
    (hLength : buffer.length = lineSize)
    (hTake : buffer.take text.val.length = text.val) :
    HoldsText (buffer.set text.val.length 0) text where
  length := by rw [List.length_set, hLength]
  chars := by
    have hFits := text.property.1
    refine ⟨buffer.drop (text.val.length + 1), ?_⟩
    rw [List.set_eq_take_append_cons_drop,
      if_pos (by rwa [hLength]), hTake]

/- A NUL at the start empties an array. -/
theorem holdsText_empty
    {buffer : List UInt8}
    (hLength : buffer.length = lineSize) :
    HoldsText (buffer.set 0 0) Text.empty :=
  have hTake :
      buffer.take Text.empty.val.length = Text.empty.val :=
    rfl
  holdsText_set hLength hTake

theorem HoldsText.take
    {buffer : List UInt8}
    {text : Text}
    (hHolds : HoldsText buffer text) :
    buffer.take text.val.length = text.val := by
  obtain ⟨rest, hRest⟩ := hHolds.chars
  rw [hRest, List.take_left]

end Shell

end Whirliscope

------------------------------------------------------------
-- The Shell's Functions
------------------------------------------------------------

namespace Whirliscope

namespace Shell

open Drivers
open FaultProgram
open Stdio

/- No fault is allowed. -/
abbrev never : Fault → Prop :=
  fun _ => False

@[simp] theorem ensures_act_iff
    (actions : List Action)
    (state : ShellState)
    (post : Unit → ShellState → Prop) :
    Ensures never (act actions) state post ↔
      post () { state with actions := state.actions ++ actions } :=
  ensures_modify_iff _ _ _ _

@[simp] theorem ensures_setLineLen_iff
    (length : Nat)
    (state : ShellState)
    (post : Unit → ShellState → Prop) :
    Ensures never (setLineLen length) state post ↔
      post () { state with lineLen := length } :=
  ensures_modify_iff _ _ _ _

@[simp] theorem ensures_setCursor_iff
    (cursor : Nat)
    (state : ShellState)
    (post : Unit → ShellState → Prop) :
    Ensures never (setCursor cursor) state post ↔
      post () { state with historyCursor := cursor } :=
  ensures_modify_iff _ _ _ _

theorem ensures_writeLine_iff
    {index : Nat}
    {state : ShellState}
    (hIndex : index < state.line.length)
    (ch : UInt8)
    (post : Unit → ShellState → Prop) :
    Ensures never (writeLine index ch) state post ↔
      post () { state with line := state.line.set index ch } := by
  rw [writeLine]
  simp only [ensures_bind_iff, ensures_get_iff,
    ensures_lift_iff, writeAt_of_lt hIndex, yields_ok_iff,
    ensures_set_iff]

theorem ensures_writeLine
    {index : Nat}
    {state : ShellState}
    {ch : UInt8}
    {post : Unit → ShellState → Prop}
    (hIndex : index < state.line.length)
    (hPost :
      post () { state with line := state.line.set index ch }) :
    Ensures never (writeLine index ch) state post :=
  (ensures_writeLine_iff hIndex ch post).mpr hPost

theorem ensures_historyAt_iff
    {index : Nat}
    {entry : List UInt8}
    {state : ShellState}
    (hEntry : state.history[index]? = some entry)
    (post : List UInt8 → ShellState → Prop) :
    Ensures never (historyAt index) state post ↔
      post entry state := by
  rw [historyAt]
  simp only [ensures_bind_iff, ensures_get_iff, hEntry,
    ensures_pure_iff]

theorem ensures_historyAt
    {index : Nat}
    {entry : List UInt8}
    {state : ShellState}
    {post : List UInt8 → ShellState → Prop}
    (hEntry : state.history[index]? = some entry)
    (hPost : post entry state) :
    Ensures never (historyAt index) state post :=
  (ensures_historyAt_iff hEntry post).mpr hPost

theorem ensures_eraseChars
    (lineLen : Nat)
    (state : ShellState) :
    Ensures never (eraseChars lineLen) state fun _ final =>
      ∃ actions, final =
        { state with
          lineLen := 0
          actions := actions } := by
  induction lineLen generalizing state with
  | zero =>
      rw [eraseChars, ensures_setLineLen_iff]
      exact ⟨_, rfl⟩
  | succ lineLen hLineLen =>
      rw [eraseChars, ensures_bind_iff, ensures_act_iff]
      exact hLineLen _

theorem ensures_clearLine
    {state : ShellState}
    (hLength : state.line.length = lineSize) :
    Ensures never clearLine state fun _ final =>
      ∃ line actions,
        HoldsText line Text.empty ∧
          final =
            { state with
              line := line
              lineLen := 0
              actions := actions } := by
  rw [clearLine, ensures_bind_iff, ensures_get_iff,
    ensures_bind_iff]
  refine (ensures_eraseChars _ _).mono ?_
  rintro _ _ ⟨actions, rfl⟩
  exact ensures_writeLine
    (hLength.symm ▸ (by decide : 0 < lineSize))
    ⟨_, actions, holdsText_empty hLength, rfl⟩

/- What the loop of `set_line` has copied. -/
theorem ensures_copyChars
    (text : Text)
    (rest : List UInt8)
    (fuel lineLen : Nat)
    (state : ShellState)
    (hFuel : text.val.length < lineLen + fuel)
    (hLineLen : lineLen ≤ text.val.length)
    (hLength : state.line.length = lineSize)
    (hTake :
      state.line.take lineLen = text.val.take lineLen) :
    Ensures never
      (copyChars (text.val ++ 0 :: rest) fuel lineLen) state
      fun result final =>
        result = text.val.length ∧
          ∃ line actions,
            line.length = lineSize ∧
              line.take text.val.length = text.val ∧
              final =
                { state with
                  line := line
                  actions := actions } := by
  induction fuel generalizing lineLen state with
  | zero => omega
  | succ fuel hPasses =>
      have hFits := text.property.1
      rw [copyChars]
      by_cases hEnd : lineLen = text.val.length
      · -- the NUL is reached, or the line is full
        have hDone :
            ∃ line actions,
              line.length = lineSize ∧
                line.take text.val.length = text.val ∧
                state =
                  { state with
                    line := line
                    actions := actions } := by
          refine ⟨state.line, state.actions, hLength, ?_, rfl⟩
          rw [← hEnd, hTake, hEnd, List.take_length]
        have hNul :
            readAt (text.val ++ 0 :: rest) lineLen = .ok 0 := by
          rw [readAt, hEnd,
            List.getElem?_append_right (Nat.le_refl _),
            Nat.sub_self]
          rfl
        by_cases hRoom : lineLen + 1 < lineSize
        · rw [if_pos hRoom]
          simp only [ensures_bind_iff, ensures_lift_iff, hNul,
            yields_ok_iff, ne_eq, not_true, if_false,
            ensures_pure_iff]
          exact ⟨hEnd, hDone⟩
        · rw [if_neg hRoom, ensures_pure_iff]
          exact ⟨hEnd, hDone⟩
      · have hLess : lineLen < text.val.length := by omega
        have hRead :
            readAt (text.val ++ 0 :: rest) lineLen =
              .ok text.val[lineLen] := by
          rw [readAt, List.getElem?_append_left hLess,
            List.getElem?_eq_getElem hLess]
          rfl
        have hChar : text.val[lineLen] ≠ 0 := by
          intro hZero
          have hMem := List.getElem_mem hLess
          rw [hZero] at hMem
          exact text.property.2 hMem
        have hIndex : lineLen < state.line.length := by omega
        rw [if_pos (by omega : lineLen + 1 < lineSize)]
        simp only [ensures_bind_iff, ensures_lift_iff, hRead,
          yields_ok_iff, if_pos hChar, ensures_act_iff,
          ensures_writeLine_iff hIndex]
        refine (hPasses (lineLen + 1) _ (by omega) (by omega)
          (by simpa using hLength) ?_).mono ?_
        · rw [List.take_add_one, List.take_add_one,
            List.take_set_of_le (Nat.le_refl _), hTake,
            List.getElem?_set_self hIndex,
            List.getElem?_eq_getElem hLess]
        · rintro _ _ ⟨hResult, line, actions, hLine, hText, rfl⟩
          exact ⟨hResult, line, actions, hLine, hText, rfl⟩

theorem ensures_setLine
    (state : ShellState)
    (text : Text)
    (rest : List UInt8)
    (hLength : state.line.length = lineSize) :
    Ensures never (setLine (text.val ++ 0 :: rest)) state
      fun _ final =>
        ∃ line actions,
          HoldsText line text ∧
            final =
              { state with
                line := line
                lineLen := text.val.length
                actions := actions } := by
  have hFits := text.property.1
  rw [setLine, ensures_bind_iff]
  refine (ensures_clearLine hLength).mono ?_
  rintro _ _ ⟨line, actions, hLine, rfl⟩
  rw [ensures_bind_iff]
  refine (ensures_copyChars text rest lineSize 0 _ (by omega)
    (Nat.zero_le _) hLine.length rfl).mono ?_
  rintro _ _ ⟨rfl, line', actions', hLength', hText, rfl⟩
  rw [ensures_bind_iff, ensures_setLineLen_iff]
  exact ensures_writeLine (by rwa [hLength'])
    ⟨_, actions', holdsText_set hLength' hText, rfl⟩

end Shell

end Whirliscope

------------------------------------------------------------
-- The Shell's History
------------------------------------------------------------

namespace Whirliscope

namespace Shell

open Drivers
open FaultProgram
open Stdio

/- The first arrays of the history hold its entries. -/
structure HistoryHolds
    (history : List (List UInt8))
    (entries : List Text) : Prop where
  length : history.length = historySize
  sized : ∀ buffer ∈ history, buffer.length = lineSize
  holds : ∀ (index : Nat) (text : Text),
    entries[index]? = some text →
      ∃ buffer, history[index]? = some buffer ∧
        HoldsText buffer text

theorem HistoryHolds.sized_set
    {history : List (List UInt8)}
    {entries : List Text}
    (hHolds : HistoryHolds history entries)
    {copy : List UInt8}
    (hCopy : copy.length = lineSize)
    (index : Nat) :
    ∀ buffer ∈ history.set index copy,
      buffer.length = lineSize := by
  intro buffer hBuffer
  rcases List.mem_or_eq_of_mem_set hBuffer with hOld | rfl
  · exact hHolds.sized buffer hOld
  · exact hCopy

/- An entry is replaced. -/
theorem HistoryHolds.set
    {history : List (List UInt8)}
    {entries : List Text}
    (hHolds : HistoryHolds history entries)
    {copy : List UInt8}
    {text : Text}
    (hCopy : HoldsText copy text)
    {index : Nat}
    (hIndex : index < historySize) :
    HistoryHolds (history.set index copy)
      (entries.set index text) where
  length := by rw [List.length_set, hHolds.length]
  sized := hHolds.sized_set hCopy.length index
  holds := by
    intro other otherText hOther
    by_cases hSame : index = other
    · subst hSame
      rw [List.getElem?_set_self'] at hOther
      obtain ⟨_, -, rfl⟩ := Option.map_eq_some_iff.mp hOther
      exact ⟨copy,
        List.getElem?_set_self (by rwa [hHolds.length]), hCopy⟩
    · rw [List.getElem?_set_ne hSame] at hOther ⊢
      exact hHolds.holds other otherText hOther

/- An entry is added. -/
theorem HistoryHolds.snoc
    {history : List (List UInt8)}
    {entries : List Text}
    (hHolds : HistoryHolds history entries)
    {copy : List UInt8}
    {text : Text}
    (hCopy : HoldsText copy text)
    (hRoom : entries.length < historySize) :
    HistoryHolds (history.set entries.length copy)
      (entries ++ [text]) where
  length := by rw [List.length_set, hHolds.length]
  sized := hHolds.sized_set hCopy.length _
  holds := by
    intro index indexText hIndex
    by_cases hLast : index = entries.length
    · subst hLast
      rw [List.getElem?_concat_length,
        Option.some.injEq] at hIndex
      subst hIndex
      exact ⟨copy,
        List.getElem?_set_self (by rwa [hHolds.length]), hCopy⟩
    · have hLess : index < entries.length := by
        have hSome := (List.getElem?_eq_some_iff.mp hIndex).1
        rw [List.length_append, List.length_singleton] at hSome
        omega
      rw [List.getElem?_append_left hLess] at hIndex
      rw [List.getElem?_set_ne (Ne.symm hLast)]
      exact hHolds.holds index indexText hIndex

theorem ensures_copyToHistory
    (state : ShellState)
    {entries : List Text}
    (hHolds : HistoryHolds state.history entries)
    {index : Nat}
    (hIndex : index < historySize)
    (text : Text)
    (rest : List UInt8) :
    Ensures never
      (copyToHistory index (text.val ++ 0 :: rest)) state
      fun _ final =>
        ∃ copy, HoldsText copy text ∧
          final =
            { state with
              history := state.history.set index copy } := by
  have hSlot : index < state.history.length := by
    rwa [hHolds.length]
  have hDest := List.getElem?_eq_getElem hSlot
  obtain ⟨copy, hCopied, hCopy⟩ :=
    strcpy_text (hHolds.sized _ (List.getElem_mem hSlot))
      text rest
  rw [copyToHistory, ensures_bind_iff,
    ensures_historyAt_iff hDest]
  simp only [ensures_bind_iff, ensures_lift_iff, hCopied,
    yields_ok_iff, ensures_modify_iff]
  exact ⟨copy, hCopy, rfl⟩

/- Each pass moves one entry down. -/
theorem ensures_shiftHistory
    {state : ShellState}
    {entries : List Text}
    (hHolds : HistoryHolds state.history entries)
    (hFull : entries.length = historySize)
    {passes : Nat}
    (hPasses : passes < historySize) :
    Ensures never (shiftHistory passes) state fun _ final =>
      ∃ history,
        HistoryHolds history
            (entries.tail.take passes ++
              entries.drop passes) ∧
          final = { state with history := history } := by
  induction passes with
  | zero =>
      rw [shiftHistory, ensures_pure_iff]
      exact ⟨state.history, hHolds, rfl⟩
  | succ passes hBefore =>
      rw [shiftHistory, ensures_bind_iff]
      refine (hBefore (by omega)).mono ?_
      rintro _ _ ⟨history, hHistory, rfl⟩
      have hNext : passes + 1 < entries.length := by omega
      have hMoved :
          (entries.tail.take passes).length = passes := by
        rw [List.length_take, List.length_tail]
        omega
      have hSource :
          (entries.tail.take passes ++
              entries.drop passes)[passes + 1]? =
            some entries[passes + 1] := by
        rw [List.getElem?_append_right (by omega), hMoved,
          List.getElem?_drop,
          show passes + (passes + 1 - passes) = passes + 1 by
            omega,
          List.getElem?_eq_getElem hNext]
      obtain ⟨buffer, hBuffer, hText⟩ :=
        hHistory.holds _ _ hSource
      obtain ⟨rest, hRest⟩ := hText.chars
      rw [ensures_bind_iff, ensures_historyAt_iff hBuffer,
        hRest]
      refine (ensures_copyToHistory _ hHistory (by omega) _
        rest).mono ?_
      rintro _ _ ⟨copy, hCopy, rfl⟩
      refine ⟨_, ?_, rfl⟩
      have hSet := hHistory.set hCopy (by omega : passes < _)
      have hEntries :
          (entries.tail.take passes ++
                entries.drop passes).set passes
              entries[passes + 1] =
            entries.tail.take (passes + 1) ++
              entries.drop (passes + 1) := by
        rw [List.set_append_right _ _ (by omega), hMoved,
          Nat.sub_self,
          List.drop_eq_getElem_cons (by omega : passes < _),
          List.set_cons_zero, List.take_add_one,
          List.getElem?_tail,
          List.getElem?_eq_getElem hNext]
        simp
      rwa [hEntries] at hSet

end Shell

end Whirliscope

------------------------------------------------------------
-- Commands in the History
------------------------------------------------------------

namespace Whirliscope

namespace Shell

open Drivers
open FaultProgram
open Stdio

theorem ensures_repeatsLast
    {state : ShellState}
    {entries : List Text}
    (hHolds : HistoryHolds state.history entries)
    (hCount : state.historyCount = entries.length)
    (text : Text) :
    Ensures never (repeatsLast (text.val ++ [0])) state
      fun repeated final =>
        repeated = decide (entries.getLast? = some text) ∧
          final = state := by
  rw [repeatsLast, ensures_bind_iff, ensures_get_iff,
    ensures_ite_iff, hCount]
  constructor
  · intro hSome
    have hLast :
        entries[entries.length - 1]? =
          some (entries[entries.length - 1]) :=
      List.getElem?_eq_getElem (by omega)
    obtain ⟨buffer, hBuffer, hText⟩ := hHolds.holds _ _ hLast
    obtain ⟨rest, hRest⟩ := hText.chars
    obtain ⟨order, hOrder, hIff⟩ :=
      strcmp_text entries[entries.length - 1].val text.val
        entries[entries.length - 1].property.2
        text.property.2 rest []
    rw [ensures_bind_iff, ensures_historyAt_iff hBuffer, hRest]
    simp only [ensures_bind_iff, ensures_lift_iff, hOrder,
      yields_ok_iff, ensures_pure_iff, and_true]
    have hSame :
        entries.getLast? = some text ↔ order = 0 := by
      rw [List.getLast?_eq_getElem?, hLast,
        Option.some.injEq, ← Subtype.val_inj, hIff]
    rw [decide_eq_decide.mpr hSame]
    rfl
  · intro hNone
    have hEmpty : entries = [] :=
      List.length_eq_zero_iff.mp (by omega)
    rw [ensures_pure_iff, hEmpty]
    exact ⟨rfl, rfl⟩

theorem ensures_pushHistory
    {state : ShellState}
    {entries : List Text}
    (hHolds : HistoryHolds state.history entries)
    (hCount : state.historyCount = entries.length)
    (hEntries : entries.length ≤ historySize)
    {text : Text}
    (hText : text.val ≠ []) :
    Ensures never (pushHistory (text.val ++ [0])) state
      fun _ final =>
        ∃ history,
          HistoryHolds history (remember entries text) ∧
            final =
              { state with
                history := history
                historyCount := (remember entries text).length
                historyCursor :=
                  (remember entries text).length } := by
  have hFirst :
      ∃ ch, readAt (text.val ++ [0]) 0 = .ok ch ∧ ch ≠ 0 := by
    obtain ⟨ch, rest, hCons⟩ :=
      List.exists_cons_of_ne_nil hText
    refine ⟨ch, ?_, ?_⟩
    · rw [hCons]
      rfl
    · rintro rfl
      exact text.property.2 (hCons ▸ List.mem_cons_self)
  obtain ⟨ch, hRead, hCh⟩ := hFirst
  rw [pushHistory]
  simp only [ensures_bind_iff, ensures_lift_iff, hRead,
    yields_ok_iff, if_neg hCh, ensures_get_iff]
  refine (ensures_repeatsLast hHolds hCount text).mono ?_
  intro repeated same hRepeated
  rw [hRepeated.1, hRepeated.2]
  by_cases hRepeats : entries.getLast? = some text
  · simp only [decide_eq_true hRepeats, if_true,
      ensures_setCursor_iff]
    rw [remember, if_pos hRepeats, hCount]
    exact ⟨_, hHolds, by rw [← hCount]⟩
  · have hNo :
        decide (entries.getLast? = some text) = false :=
      decide_eq_false hRepeats
    simp only [hNo, Bool.false_eq_true, if_false]
    rw [remember, if_neg hRepeats]
    by_cases hRoom : entries.length < historySize
    · simp only [hCount, if_pos hRoom, ensures_bind_iff,
        ensures_modify_iff]
      refine (ensures_copyToHistory
        { state with historyCount := entries.length + 1 }
        hHolds hRoom text []).mono ?_
      rintro _ _ ⟨copy, hCopy, rfl⟩
      simp only [ensures_get_iff, ensures_setCursor_iff]
      refine ⟨_, hHolds.snoc hCopy hRoom, ?_⟩
      rw [List.length_append, List.length_singleton]
    · have hFull : entries.length = historySize := by omega
      simp only [hCount, if_neg hRoom, ensures_bind_iff]
      refine (ensures_shiftHistory hHolds hFull
        (by decide : historySize - 1 < historySize)).mono ?_
      rintro _ _ ⟨history, hHistory, rfl⟩
      refine (ensures_copyToHistory _ hHistory
        (by decide : historySize - 1 < historySize) text
        []).mono ?_
      rintro _ _ ⟨copy, hCopy, rfl⟩
      simp only [ensures_get_iff, ensures_setCursor_iff]
      have hSet := hHistory.set hCopy
        (by decide : historySize - 1 < historySize)
      have hMoved :
          (entries.tail.take (historySize - 1)) =
            entries.tail := by
        rw [List.take_of_length_le]
        rw [List.length_tail, hFull]
      have hIndex : historySize - 1 < entries.length :=
        hFull ▸ (by decide : historySize - 1 < historySize)
      have hLast :
          (entries.drop (historySize - 1)) =
            [entries[historySize - 1]] := by
        rw [List.drop_eq_getElem_cons hIndex]
        exact congrArg (entries[historySize - 1] :: ·)
          (List.drop_of_length_le (Nat.le_of_eq hFull))
      rw [hMoved, hLast, List.set_append_right _ _ (by
        rw [List.length_tail, hFull]), List.length_tail, hFull,
        Nat.sub_self, List.set_cons_zero] at hSet
      refine ⟨_, hSet, ?_⟩
      have hLength :
          (entries.tail ++ [text]).length = historySize := by
        rw [List.length_append, List.length_tail, hFull]
        rfl
      rw [hLength, hCount, hFull]

end Shell

end Whirliscope
