import Mathlib.Data.List.Destutter
import Whirliscope.App.Shell

/-
  The shell's line editor as an editor of lists.

  The editor's texts fit the arrays of the shell by their
  type. Its history is computed from all commands submitted so
  far: repeats are collapsed, and the last entries are kept.

  Key definitions include:
    * `Text`, `kept`, `remember`
    * `Editor`, `Edit`, `Editor.apply`
    * `DriverEvent`, `meaning`, `editorAfter`

  Main theorem:
    * `kept_snoc`
-/

------------------------------------------------------------
-- The Editor
------------------------------------------------------------

namespace Whirliscope

namespace Shell

open Drivers
open Stdio

/- The texts that fit a line. -/
abbrev Text :=
  { chars : List UInt8 // chars.length < lineSize ∧ 0 ∉ chars }

def Text.empty : Text :=
  ⟨[], by decide, List.not_mem_nil⟩

/- A part of a text is a text. -/
def Text.part
    (text : Text)
    (chars : List UInt8)
    (hPart : chars.Sublist text.val) : Text :=
  ⟨chars,
    Nat.lt_of_le_of_lt hPart.length_le text.property.1,
    fun hZero => text.property.2 (hPart.subset hZero)⟩

/- A character is appended if there is room. -/
def Text.insert
    (text : Text)
    (ch : UInt8) : Text :=
  if hRoom : text.val.length + 1 < lineSize ∧ ch ≠ 0 then
    ⟨text.val ++ [ch], by
      refine ⟨by simpa using hRoom.1, ?_⟩
      rw [List.mem_append, List.mem_singleton]
      exact not_or.mpr ⟨text.property.2, hRoom.2.symm⟩⟩
  else
    text

def Text.dropLast
    (text : Text) : Text :=
  text.part text.val.dropLast (List.dropLast_sublist _)

/- A command without the blanks around it. -/
def Text.trim
    (text : Text) : Text :=
  text.part (trimRight (skipSpaces text.val))
    ((List.rdropWhile_prefix _ _).sublist.trans
      (List.dropWhile_sublist _))

/- The last commands, with consecutive repeats collapsed. -/
def kept
    (submitted : List Text) : List Text :=
  (submitted.destutter (· ≠ ·)).rtake historySize

/- The entries after one more command. -/
def remember
    (entries : List Text)
    (command : Text) : List Text :=
  if entries.getLast? = some command then
    entries
  else if entries.length < historySize then
    entries ++ [command]
  else
    entries.tail ++ [command]

structure Editor where
  line : Text
  submitted : List Text
  cursor : Nat
  cursorFits : cursor ≤ (kept submitted).length

def Editor.history
    (editor : Editor) : List Text :=
  kept editor.submitted

/- An entry of the history, empty past the newest. -/
def Editor.entry
    (editor : Editor)
    (index : Nat) : Text :=
  editor.history[index]?.getD Text.empty

def Editor.empty : Editor where
  line := Text.empty
  submitted := []
  cursor := 0
  cursorFits := Nat.zero_le _

/- What a key is for. -/
inductive Edit where
| insert (ch : UInt8)
| backspace
| clear
| previous
| next
| submit
| nothing
deriving DecidableEq, Repr

def Editor.previous
    (editor : Editor) : Editor :=
  if editor.history = [] then
    editor
  else
    { editor with
      line := editor.entry (editor.cursor - 1)
      cursor := editor.cursor - 1
      cursorFits :=
        Nat.le_trans (Nat.sub_le _ _) editor.cursorFits }

def Editor.next
    (editor : Editor) : Editor :=
  if hNewer : editor.cursor < editor.history.length then
    { editor with
      line := editor.entry (editor.cursor + 1)
      cursor := editor.cursor + 1
      cursorFits := hNewer }
  else
    editor

/- A command that is not blank enters the history. -/
def Editor.submit
    (editor : Editor) : Editor :=
  let command := editor.line.trim
  if command.val = [] then
    { editor with line := Text.empty }
  else
    { line := Text.empty
      submitted := editor.submitted ++ [command]
      cursor := (kept (editor.submitted ++ [command])).length
      cursorFits := Nat.le_refl _ }

def Editor.apply
    (editor : Editor) : Edit → Editor
| .insert ch => { editor with line := editor.line.insert ch }
| .backspace => { editor with line := editor.line.dropLast }
| .clear => { editor with line := Text.empty }
| .previous => editor.previous
| .next => editor.next
| .submit => editor.submit
| .nothing => editor

/-
  What the keys are for. Control with a letter gives one of
  the first characters: H and J are backspace and enter, and
  the others do nothing to the line.
-/
def meaning
    (event : InputEvent) : Edit :=
  match event.key with
  | .escape => .clear
  | .up => .previous
  | .down => .next
  | _ =>
    if event.ch = 8 then .backspace
    else if event.ch = code '\n' then .submit
    else if event.ch = 3 then .clear
    else if event.ch < code ' ' then .nothing
    else .insert event.ch

/- An event that the keyboard driver can enqueue. -/
structure DriverEvent where
  event : InputEvent
  enqueued : ∃ flags byte,
    (handleScancode flags byte).2 =
      some (event.key, event.ch)

/- The events that the shell sees. -/
abbrev Delivery := DriverEvent × Commands

def editorAfter
    (events : List Delivery) : Editor :=
  events.foldl
    (fun editor (driver, _) =>
      editor.apply (meaning driver.event))
    Editor.empty

/- The shell after the same events. -/
def shellAfterDriver
    (events : List Delivery) : Except Fault ShellState :=
  shellAfter
    (events.map fun (driver, commands) =>
      (driver.event, commands))

end Shell

end Whirliscope

------------------------------------------------------------
-- The History of an Editor
------------------------------------------------------------

namespace Whirliscope

namespace Shell

variable {α : Type}

theorem getLast?_rtake
    (entries : List α)
    {count : Nat}
    (hCount : 0 < count) :
    (entries.rtake count).getLast? = entries.getLast? := by
  rw [List.rtake, List.getLast?_drop]
  split
  next hEmpty =>
    have hLength : entries.length = 0 := by omega
    rw [List.length_eq_zero_iff.mp hLength]
    rfl
  next => rfl

/- Keeping one element more drops the oldest of those kept. -/
theorem rtake_snoc
    (entries : List α)
    (last : α)
    (count : Nat) :
    (entries ++ [last]).rtake (count + 1) =
      if (entries.rtake (count + 1)).length < count + 1 then
        entries.rtake (count + 1) ++ [last]
      else
        (entries.rtake (count + 1)).tail ++ [last] := by
  rw [List.rtake_concat_succ]
  simp only [List.rtake, List.length_drop]
  split
  next hShort =>
    have hAll : entries.length - (count + 1) = 0 := by omega
    have hAll' : entries.length - count = 0 := by omega
    rw [hAll, hAll']
  next hLong =>
    have hStart :
        entries.length - count =
          entries.length - (count + 1) + 1 := by
      omega
    rw [hStart, List.tail_drop]

variable [DecidableEq α]

theorem destutter'_snoc
    (first : α)
    (rest : List α)
    (last : α) :
    (rest ++ [last]).destutter' (· ≠ ·) first =
      if (rest.destutter' (· ≠ ·) first).getLast? =
          some last then
        rest.destutter' (· ≠ ·) first
      else
        rest.destutter' (· ≠ ·) first ++ [last] := by
  induction rest generalizing first with
  | nil =>
      by_cases hSame : first = last
      · simp [List.destutter', hSame]
      · simp [List.destutter', hSame]
  | cons next rest hRest =>
      by_cases hSame : first = next
      · subst hSame
        simpa [List.destutter'] using hRest first
      · have hNext :
            (rest.destutter' (· ≠ ·) next).getLast? =
              (first :: rest.destutter' (· ≠ ·) next).getLast? := by
          rw [List.getLast?_cons_of_ne_nil
            (List.destutter'_ne_nil _ _)]
        rw [List.cons_append,
          List.destutter'_cons_pos _ hSame,
          List.destutter'_cons_pos _ hSame, hRest, hNext]
        split <;> rfl

theorem destutter_snoc
    (before : List α)
    (last : α) :
    (before ++ [last]).destutter (· ≠ ·) =
      if (before.destutter (· ≠ ·)).getLast? = some last then
        before.destutter (· ≠ ·)
      else
        before.destutter (· ≠ ·) ++ [last] := by
  cases before with
  | nil => rfl
  | cons first rest => exact destutter'_snoc first rest last

/- The history after one more command. -/
theorem kept_snoc
    (submitted : List Text)
    (command : Text) :
    kept (submitted ++ [command]) =
      remember (kept submitted) command := by
  rw [kept, kept, remember, destutter_snoc,
    getLast?_rtake _ (by decide : 0 < historySize)]
  split
  next => rfl
  next => exact rtake_snoc _ command 7

theorem kept_length
    (submitted : List Text) :
    (kept submitted).length ≤ historySize := by
  rw [kept, List.rtake, List.length_drop]
  omega

end Shell

end Whirliscope
