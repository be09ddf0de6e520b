import Mathlib.Data.List.DropRight
import Whirliscope.App.DecimalSize
import Whirliscope.Drivers.Keyboard
import Whirliscope.Library.FaultProgram

/-
  The shell's line and its history.

  The line and the entries of the history are arrays of
  `LINE_SIZE` characters. An access outside an array is a
  fault. The commands themselves are a parameter: none of them
  uses the line or the history.

  Key definitions include:
    * `ShellState`, `setLine`, `pushHistory`
    * `runCommand`, `handleChar`, `handleEvent`
-/

------------------------------------------------------------
-- Strings
------------------------------------------------------------

namespace Whirliscope

namespace Shell

open FaultProgram
open Stdio

inductive Fault where
| bounds
| fuel
deriving DecidableEq, Repr

/- `LINE_SIZE`. -/
def lineSize : Nat := 128

/- `HISTORY_SIZE`. -/
def historySize : Nat := 8

def readAt
    (buffer : List UInt8)
    (index : Nat) : Except Fault UInt8 :=
  match buffer[index]? with
  | none => throw .bounds
  | some ch => return ch

def writeAt
    (buffer : List UInt8)
    (index : Nat)
    (ch : UInt8) : Except Fault (List UInt8) :=
  if index < buffer.length then
    return buffer.set index ch
  else
    throw .bounds

/- The characters of a string up to its NUL. -/
def cString : List UInt8 → Except Fault (List UInt8)
| [] => throw .bounds
| ch :: rest =>
    if ch = 0 then
      return []
    else do
      let chars ← cString rest
      return ch :: chars

/- `strcpy`. -/
def strcpy
    (dest src : List UInt8) : Except Fault (List UInt8) := do
  let chars ← cString src
  if chars.length < dest.length then
    return chars ++ 0 :: dest.drop (chars.length + 1)
  else
    throw .bounds

/- `strcmp`. -/
def strcmp : List UInt8 → List UInt8 → Except Fault Int
| c1 :: s1, c2 :: s2 =>
    if c1 ≠ 0 ∧ c1 = c2 then
      strcmp s1 s2
    else
      return c1.toNat - c2.toNat
| _, _ => throw .bounds

/- `trim_right`. -/
def trimRight
    (s : List UInt8) : List UInt8 :=
  s.rdropWhile isSpace

/- `split_command`. -/
def splitCommand
    (input : List UInt8) :
    Option (List UInt8 × List UInt8) :=
  let input := trimRight (skipSpaces input)
  if input = [] then
    none
  else
    some
      (input.takeWhile (!isSpace ·),
        skipSpaces (input.dropWhile (!isSpace ·)).tail)

end Shell

end Whirliscope

------------------------------------------------------------
-- The Line
------------------------------------------------------------

namespace Whirliscope

namespace Shell

open Drivers
open FaultProgram
open Stdio

/-
  The static variables of the shell, and what it has asked of
  the kernel.
-/
structure ShellState where
  line : List UInt8
  lineLen : Nat
  history : List (List UInt8)
  historyCount : Nat
  historyCursor : Nat
  actions : List Action

/- The static variables of a shell that starts. -/
def ShellState.boot : ShellState where
  line := List.replicate lineSize 0
  lineLen := 0
  history :=
    List.replicate historySize (List.replicate lineSize 0)
  historyCount := 0
  historyCursor := 0
  actions := []

abbrev ShellM := Program ShellState Fault

def act
    (actions : List Action) : ShellM Unit :=
  modify fun state =>
    { state with actions := state.actions ++ actions }

/- `line[index] = ch`. -/
def writeLine
    (index : Nat)
    (ch : UInt8) : ShellM Unit := do
  let state ← get
  let line ← writeAt state.line index ch
  set { state with line := line }

def setLineLen
    (length : Nat) : ShellM Unit :=
  modify fun state => { state with lineLen := length }

def setCursor
    (cursor : Nat) : ShellM Unit :=
  modify fun state => { state with historyCursor := cursor }

/- `history[index]`. -/
def historyAt
    (index : Nat) : ShellM (List UInt8) := do
  let state ← get
  match state.history[index]? with
  | none => throw .bounds
  | some entry => return entry

/- `strcpy(history[index], src)`. -/
def copyToHistory
    (index : Nat)
    (src : List UInt8) : ShellM Unit := do
  let dest ← historyAt index
  let entry ← strcpy dest src
  modify fun state =>
    { state with history := state.history.set index entry }

/- `prompt`. -/
def prompt : ShellM Unit :=
  act [.print (text "u> ")]

/- What erases a character on the screen. -/
def erased : List UInt8 :=
  [8, 32, 8]

/- The loop of `clear_line`. -/
def eraseChars : Nat → ShellM Unit
| 0 => setLineLen 0
| lineLen + 1 => do
    act [.print erased]
    eraseChars lineLen

/- `clear_line`. -/
def clearLine : ShellM Unit := do
  let state ← get
  eraseChars state.lineLen
  writeLine 0 0

/- The loop of `set_line`, from `lineLen` on. -/
def copyChars
    (s : List UInt8) : Nat → Nat → ShellM Nat
| 0, _ => throw .fuel
| fuel + 1, lineLen => do
    if lineLen + 1 < lineSize then
      let ch ← readAt s lineLen
      if ch ≠ 0 then
        writeLine lineLen ch
        act [.print [ch]]
        copyChars s fuel (lineLen + 1)
      else
        return lineLen
    else
      return lineLen

/- `set_line`. -/
def setLine
    (s : List UInt8) : ShellM Unit := do
  clearLine
  let lineLen ← copyChars s lineSize 0
  setLineLen lineLen
  writeLine lineLen 0

/- The loop of `push_history` on a full history. -/
def shiftHistory : Nat → ShellM Unit
| 0 => return ()
| i + 1 => do
    shiftHistory i
    copyToHistory i (← historyAt (i + 1))

/- Whether a string repeats the newest entry. -/
def repeatsLast
    (s : List UInt8) : ShellM Bool := do
  let state ← get
  if state.historyCount > 0 then
    let last ← historyAt (state.historyCount - 1)
    let order ← strcmp last s
    return order == 0
  else
    return false

/- `push_history`, for a string with its NUL. -/
def pushHistory
    (s : List UInt8) : ShellM Unit := do
  let first ← readAt s 0
  if first = 0 then
    return ()
  else
    let state ← get
    if ← repeatsLast s then
      setCursor state.historyCount
    else
      if state.historyCount < historySize then
        modify fun state =>
          { state with
            historyCount := state.historyCount + 1 }
        copyToHistory state.historyCount s
      else
        shiftHistory (historySize - 1)
        copyToHistory (historySize - 1) s
      let state ← get
      setCursor state.historyCount

/- `history_previous`. -/
def historyPrevious : ShellM Unit := do
  let state ← get
  if state.historyCount = 0 then
    return ()
  else
    let cursor :=
      if state.historyCursor > 0 then
        state.historyCursor - 1
      else
        state.historyCursor
    setCursor cursor
    setLine (← historyAt cursor)

/- `history_next`. -/
def historyNext : ShellM Unit := do
  let state ← get
  if state.historyCount = 0 ∨
      state.historyCursor ≥ state.historyCount then
    return ()
  else
    setCursor (state.historyCursor + 1)
    if state.historyCursor + 1 = state.historyCount then
      setLine [0]
    else
      setLine (← historyAt (state.historyCursor + 1))

end Shell

end Whirliscope

------------------------------------------------------------
-- Events
------------------------------------------------------------

namespace Whirliscope

namespace Shell

open Drivers
open FaultProgram
open Stdio

/- What the commands do with their name and operands. -/
abbrev Commands :=
  List UInt8 → List UInt8 → List Action

/- `run_command`: whether the shell ends. -/
def runCommand
    (commands : Commands)
    (input : List UInt8) : ShellM Int := do
  let chars ← cString input
  let input := trimRight (skipSpaces chars)
  if input = [] then
    return 0
  else
    pushHistory (input ++ [0])
    match splitCommand input with
    | none => return 0
    | some (command, args) =>
        act (commands command args)
        return if command = text "exit" then 1 else 0

/- The case of the backspace, in `handle_char`. -/
def handleBackspace : ShellM Int := do
  let state ← get
  if state.lineLen > 0 then
    setLineLen (state.lineLen - 1)
    writeLine (state.lineLen - 1) 0
    act [.print erased]
    return 0
  else
    return 0

/- The case of the newline, in `handle_char`. -/
def handleNewline
    (commands : Commands) : ShellM Int := do
  act [.print [code '\n']]
  let state ← get
  writeLine state.lineLen 0
  let state ← get
  -- the array on the stack starts with any contents
  let commandLine ←
    strcpy (List.replicate lineSize 0) state.line
  setLineLen 0
  writeLine 0 0
  let answer ← runCommand commands commandLine
  if answer ≠ 0 then
    return 1
  else
    prompt
    return 0

/- The case of control-C, in `handle_char`. -/
def handleInterrupt : ShellM Int := do
  act (println (text "^C"))
  setLineLen 0
  writeLine 0 0
  prompt
  return 0

/- The case of control-L, in `handle_char`. -/
def handleRedraw : ShellM Int := do
  act [.clear]
  prompt
  let state ← get
  if state.lineLen > 0 then
    let chars ← cString state.line
    act [.print chars]
    return 0
  else
    return 0

/- The characters of the line, in `handle_char`. -/
def handleText
    (ch : UInt8) : ShellM Int := do
  let state ← get
  if ch < code ' ' ∨ state.lineLen + 1 ≥ lineSize then
    return 0
  else
    writeLine state.lineLen ch
    setLineLen (state.lineLen + 1)
    writeLine (state.lineLen + 1) 0
    act [.print [ch]]
    return 0

/- `handle_char`. -/
def handleChar
    (commands : Commands)
    (ch : UInt8) : ShellM Int :=
  if ch = 8 then handleBackspace
  else if ch = code '\n' then handleNewline commands
  else if ch = 3 then handleInterrupt
  else if ch = 12 then handleRedraw
  else handleText ch

/- The part of `struct user_input_event` that is looked at. -/
structure InputEvent where
  key : KeyboardKey
  ch : UInt8
deriving DecidableEq, Repr

/- The switch of `handle_event`. -/
def handleKey : KeyboardKey → ShellM Unit
| .up => historyPrevious
| .down => historyNext
| .escape => clearLine
| _ => return ()

/- `handle_event`. -/
def handleEvent
    (commands : Commands)
    (event : InputEvent) : ShellM Int := do
  if event.ch ≠ 0 then
    handleChar commands event.ch
  else
    handleKey event.key
    return 0

/-
  The shell after some events, each with what the commands do
  when it comes.
-/
def shellAfter
    (events : List (InputEvent × Commands)) :
    Except Fault ShellState :=
  events.foldlM
    (fun state (event, commands) => do
      let (_, next) ← (handleEvent commands event).run state
      return next)
    ShellState.boot

end Shell

end Whirliscope
