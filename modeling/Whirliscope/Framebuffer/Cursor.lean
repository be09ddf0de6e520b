import Whirliscope.Framebuffer.Console

/-
  Termination of console calls and the range of the cursor.

  The column of the cursor after a character depends on the
  column before it only. A tab ends exactly when its tab stop
  is a column of the screen: otherwise the line wraps before
  the stop is reached and the loop starts over.

  Main declarations:
    * `CursorInRange`
    * `columnAfter`, `TabsFit`
    * `opsFit_iff`
-/

------------------------------------------------------------
-- Calls That Keep the Cursor
------------------------------------------------------------

namespace Whirliscope

namespace Framebuffer

open ByteMemory

/- The fields that decide where the cursor goes. -/
structure SameCursor
    (console other : Console) : Prop where
  cols : other.cols = console.cols
  rows : other.rows = console.rows
  ready : other.ready = console.ready
  cursorCol : other.cursorCol = console.cursorCol
  cursorRow : other.cursorRow = console.cursorRow

theorem SameCursor.refl
    (console : Console) :
    SameCursor console console :=
  ⟨rfl, rfl, rfl, rfl, rfl⟩

theorem SameCursor.trans
    {first second third : Console}
    (hFirst : SameCursor first second)
    (hSecond : SameCursor second third) :
    SameCursor first third where
  cols := hSecond.cols.trans hFirst.cols
  rows := hSecond.rows.trans hFirst.rows
  ready := hSecond.ready.trans hFirst.ready
  cursorCol := hSecond.cursorCol.trans hFirst.cursorCol
  cursorRow := hSecond.cursorRow.trans hFirst.cursorRow

/- Drawing and the backing store leave the cursor alone. -/
theorem sameCursor_clearRect
    (console : Console)
    (x y width height : Nat) :
    SameCursor console
      (clearRect console x y width height) :=
  ⟨rfl, rfl, rfl, rfl, rfl⟩

theorem sameCursor_setCell
    (console : Console)
    (col row : Nat)
    (ch : UInt8) :
    SameCursor console (setCell console col row ch) := by
  unfold setCell
  split
  · exact SameCursor.refl console
  · exact ⟨rfl, rfl, rfl, rfl, rfl⟩

theorem sameCursor_clearBackingRow
    (console : Console)
    (row : Nat) :
    SameCursor console (clearBackingRow console row) := by
  unfold clearBackingRow
  split
  · exact SameCursor.refl console
  · exact ⟨rfl, rfl, rfl, rfl, rfl⟩

theorem sameCursor_clearBackingRows
    (rows : List Nat)
    (console : Console) :
    SameCursor console
      (rows.foldl clearBackingRow console) := by
  induction rows generalizing console with
  | nil => exact SameCursor.refl console
  | cons row rows ih =>
      exact (sameCursor_clearBackingRow console row).trans
        (ih (clearBackingRow console row))

theorem sameCursor_clearBacking
    (console : Console) :
    SameCursor console (clearBacking console) := by
  unfold clearBacking
  split
  · exact SameCursor.refl console
  · exact sameCursor_clearBackingRows _ console

theorem sameCursor_redrawFromBacking
    (font : Font)
    (console : Console) :
    SameCursor console (redrawFromBacking font console) := by
  unfold redrawFromBacking
  split
  · exact SameCursor.refl console
  · exact ⟨rfl, rfl, rfl, rfl, rfl⟩

theorem sameCursor_flushDeferredRedraw
    (font : Font)
    (console : Console) :
    SameCursor console
      (flushDeferredRedraw font console) := by
  unfold flushDeferredRedraw
  split
  · exact SameCursor.refl console
  · have hRedraw := sameCursor_redrawFromBacking font console
    exact ⟨hRedraw.cols, hRedraw.rows, hRedraw.ready,
      hRedraw.cursorCol, hRedraw.cursorRow⟩

theorem sameCursor_drawCharAt
    (font : Font)
    (console : Console)
    (col row : Nat)
    (ch : UInt8) :
    SameCursor console
      (drawCharAt font console col row ch) := by
  unfold drawCharAt
  cases console.backingReady <;>
    cases console.redrawDeferred <;>
    exact ⟨rfl, rfl, rfl, rfl, rfl⟩

theorem sameCursor_moveCellsUp
    (console : Console) :
    SameCursor console (moveCellsUp console) :=
  ⟨rfl, rfl, rfl, rfl, rfl⟩

theorem sameCursor_scroll
    (font : Font)
    (console : Console) :
    SameCursor console (scroll font console) := by
  unfold scroll
  have hCleared : SameCursor console
      (clearBackingRow (moveCellsUp console)
        (console.rows - 1)) :=
    (sameCursor_moveCellsUp console).trans
      (sameCursor_clearBackingRow (moveCellsUp console)
        (console.rows - 1))
  split_ifs
  · exact ⟨hCleared.cols, hCleared.rows, hCleared.ready,
      hCleared.cursorCol, hCleared.cursorRow⟩
  · exact hCleared.trans
      (sameCursor_redrawFromBacking font _)
  · exact ⟨rfl, rfl, rfl, rfl, rfl⟩

end Framebuffer

end Whirliscope

------------------------------------------------------------
-- One Character
------------------------------------------------------------

namespace Whirliscope

namespace Framebuffer

open ByteMemory

/- A ready console with its cursor on the screen. -/
structure CursorInRange
    (console : Console) : Prop where
  ready : console.ready = true
  cols : console.cols ≤ 2 ^ 63
  rows : console.rows ≤ 2 ^ 63
  cursorCol : console.cursorCol < console.cols
  cursorRow : console.cursorRow < console.rows

theorem CursorInRange.of_same
    {console other : Console}
    (hRange : CursorInRange console)
    (hSame : SameCursor console other) :
    CursorInRange other where
  ready := hSame.ready.trans hRange.ready
  cols := hSame.cols ▸ hRange.cols
  rows := hSame.rows ▸ hRange.rows
  cursorCol := by
    rw [hSame.cols, hSame.cursorCol]
    exact hRange.cursorCol
  cursorRow := by
    rw [hSame.rows, hSame.cursorRow]
    exact hRange.cursorRow

/- The column after a character that is not a tab. -/
def plainColumn
    (cols col : Nat)
    (ch : UInt8) : Nat :=
  if ch = 10 ∨ ch = 13 then
    0
  else if ch = 8 then
    col - 1
  else if ch < 32 then
    col
  else if col + 1 < cols then
    col + 1
  else
    0

/- The cursor moved to a column of the same screen. -/
structure MovedTo
    (col : Nat)
    (console other : Console) : Prop where
  range : CursorInRange other
  cols : other.cols = console.cols
  cursorCol : other.cursorCol = col

theorem MovedTo.of_same
    {col : Nat}
    {console middle other : Console}
    (hMoved : MovedTo col console middle)
    (hSame : SameCursor middle other) :
    MovedTo col console other where
  range := hMoved.range.of_same hSame
  cols := hSame.cols.trans hMoved.cols
  cursorCol := hSame.cursorCol.trans hMoved.cursorCol

/- Putting the cursor on the screen. -/
theorem movedTo_withCursor
    {console : Console}
    {col row : Nat}
    (hReady : console.ready = true)
    (hCols : console.cols ≤ 2 ^ 63)
    (hRows : console.rows ≤ 2 ^ 63)
    (hCol : col < console.cols)
    (hRow : row < console.rows) :
    MovedTo col console (console.withCursor col row) :=
  ⟨⟨hReady, hCols, hRows, hCol, hRow⟩, rfl, rfl⟩

/- A new line starts at column 0 of a row of the screen. -/
theorem movedTo_newline
    (font : Font)
    {console : Console}
    (hReady : console.ready = true)
    (hCols : console.cols ≤ 2 ^ 63)
    (hRows : console.rows ≤ 2 ^ 63)
    (hCol : 0 < console.cols)
    (hRow : console.cursorRow < console.rows) :
    MovedTo 0 console (newline font console) := by
  have hWrap :
      wrap 64 (console.cursorRow + 1) =
        console.cursorRow + 1 :=
    wrap_of_lt (by omega)
  unfold newline
  simp only [hWrap]
  by_cases hLast :
      (console.withCursor 0 (console.cursorRow + 1)).cursorRow ≥
        (console.withCursor 0 (console.cursorRow + 1)).rows
  · have hScroll := sameCursor_scroll font
      (console.withCursor 0 (console.cursorRow + 1))
    rw [if_pos hLast, hScroll.cursorCol]
    have hMoved :
        MovedTo 0
          (scroll font
            (console.withCursor 0 (console.cursorRow + 1)))
          ((scroll font
            (console.withCursor 0
              (console.cursorRow + 1))).withCursor 0
            ((scroll font
              (console.withCursor 0
                (console.cursorRow + 1))).rows - 1)) := by
      apply movedTo_withCursor
      · exact hScroll.ready.trans hReady
      · exact hScroll.cols ▸ hCols
      · exact hScroll.rows ▸ hRows
      · rw [hScroll.cols]
        exact hCol
      · have hPos : 0 < console.rows := by omega
        rw [hScroll.rows]
        exact Nat.sub_lt hPos Nat.one_pos
    exact ⟨hMoved.range, hMoved.cols.trans hScroll.cols, rfl⟩
  · rw [if_neg hLast]
    exact movedTo_withCursor hReady hCols hRows hCol
      (Nat.not_le.mp hLast)

/- What a character that is not a tab does to the cursor. -/
theorem movedTo_putcharPlain
    (font : Font)
    (ch : UInt8)
    {console : Console}
    (hRange : CursorInRange console) :
    MovedTo (plainColumn console.cols console.cursorCol ch)
      console (putcharPlain font ch console) := by
  have hCol := hRange.cursorCol
  have hCols := hRange.cols
  unfold putcharPlain plainColumn
  simp only [hRange.ready, Bool.not_true, Bool.false_eq_true,
    if_false]
  by_cases hNewline : ch = 10
  · simp only [hNewline, if_true, true_or]
    exact movedTo_newline font hRange.ready hRange.cols
      hRange.rows (by omega) hRange.cursorRow
  by_cases hReturn : ch = 13
  · simp only [hReturn, if_true, or_true,
      (by decide : (13 : UInt8) ≠ 10), if_false]
    exact movedTo_withCursor hRange.ready hRange.cols
      hRange.rows (by omega) hRange.cursorRow
  by_cases hBackspace : ch = 8
  · simp only [hBackspace, if_true, or_self,
      (by decide : (8 : UInt8) ≠ 10),
      (by decide : (8 : UInt8) ≠ 13), if_false]
    split_ifs with hPositive
    · have hBack : console.cursorCol - 1 < console.cols := by
        omega
      have hMoved := movedTo_withCursor hRange.ready
        hRange.cols hRange.rows hBack hRange.cursorRow
      exact hMoved.of_same
        ((sameCursor_setCell _ _ _ _).trans
          (sameCursor_clearRect _ _ _ _ _))
    · exact ⟨hRange, rfl, by omega⟩
  simp only [hNewline, hReturn, hBackspace, if_false,
    or_self]
  by_cases hControl : ch < 32
  · simp only [hControl, if_true]
    exact ⟨hRange, rfl, rfl⟩
  -- A printable character: draw it and step right.
  have hInside : ¬ console.cursorCol ≥ console.cols := by
    omega
  have hDrawn := sameCursor_drawCharAt font console
    console.cursorCol console.cursorRow ch
  have hDrawnRange := hRange.of_same hDrawn
  have hWrap :
      wrap 64 (console.cursorCol + 1) =
        console.cursorCol + 1 :=
    wrap_of_lt (by omega)
  simp only [hControl, if_false, hInside, hDrawn.cursorCol,
    hDrawn.cursorRow, hWrap]
  generalize drawCharAt font console console.cursorCol
    console.cursorRow ch = drawn at *
  by_cases hFits : console.cursorCol + 1 < console.cols
  · have hStay :
        ¬ (drawn.withCursor (console.cursorCol + 1)
            console.cursorRow).cursorCol ≥
          (drawn.withCursor (console.cursorCol + 1)
            console.cursorRow).cols := by
      change ¬ console.cursorCol + 1 ≥ drawn.cols
      rw [hDrawn.cols]
      omega
    have hMoved := movedTo_withCursor hDrawnRange.ready
      hDrawnRange.cols hDrawnRange.rows
      (hDrawn.cols.symm ▸ hFits)
      (hDrawn.cursorRow ▸ hDrawnRange.cursorRow)
    rw [if_neg hStay, if_pos hFits]
    exact ⟨hMoved.range, hDrawn.cols, rfl⟩
  · have hWraps :
        (drawn.withCursor (console.cursorCol + 1)
            console.cursorRow).cursorCol ≥
          (drawn.withCursor (console.cursorCol + 1)
            console.cursorRow).cols := by
      change console.cursorCol + 1 ≥ drawn.cols
      rw [hDrawn.cols]
      omega
    have hMoved :=
      @movedTo_newline font
        (drawn.withCursor (console.cursorCol + 1)
          console.cursorRow)
        hDrawnRange.ready hDrawnRange.cols hDrawnRange.rows
        (Nat.zero_lt_of_lt hDrawnRange.cursorCol)
        (hDrawn.cursorRow ▸ hDrawnRange.cursorRow)
    rw [if_pos hWraps, if_neg hFits]
    exact ⟨hMoved.range, hMoved.cols.trans hDrawn.cols,
      hMoved.cursorCol⟩

end Framebuffer

end Whirliscope

------------------------------------------------------------
-- Tabs
------------------------------------------------------------

namespace Whirliscope

namespace Framebuffer

open ByteMemory

/- The column where a tab ends. -/
def tabStop
    (col : Nat) : Nat :=
  (col / 4 + 1) * 4

theorem nextTabStop_eq
    {col : Nat}
    (hCol : col < 2 ^ 63) :
    nextTabStop col = tabStop col := by
  have hWrap : wrap 64 (col + tabWidth) = col + 4 :=
    wrap_of_lt (by unfold tabWidth; omega)
  have hAlign :=
    @alignDown_two_pow 64 2 (col + 4) (by decide) (by omega)
  unfold nextTabStop tabStop
  rw [hWrap]
  exact hAlign.trans (by omega)

/- A space of the tab loop. -/
theorem movedTo_space
    (font : Font)
    {console : Console}
    (hRange : CursorInRange console) :
    MovedTo (plainColumn console.cols console.cursorCol 32)
      console
      (flushDeferredRedraw font
        (putcharPlain font 32 console)) :=
  (movedTo_putcharPlain font 32 hRange).of_same
    (sameCursor_flushDeferredRedraw font _)

theorem plainColumn_space
    (cols col : Nat) :
    plainColumn cols col 32 =
      if col + 1 < cols then col + 1 else 0 := by
  simp [plainColumn]

/- A tab whose stop is on the screen ends there. -/
theorem tabLoop_of_lt
    (font : Font)
    {nextTab : Nat}
    (spaces : Nat)
    {fuel : Nat}
    {console : Console}
    (hRange : CursorInRange console)
    (hSpaces : console.cursorCol + spaces = nextTab)
    (hFits : nextTab < console.cols)
    (hFuel : spaces < fuel) :
    ∃ final,
      tabLoop font nextTab fuel console = some final ∧
        MovedTo nextTab console final := by
  induction spaces generalizing fuel console with
  | zero =>
      cases fuel with
      | zero => omega
      | succ fuel =>
          have hDone : ¬ console.cursorCol < nextTab := by
            omega
          refine ⟨console, ?_, hRange, rfl, by omega⟩
          rw [tabLoop, if_neg hDone]
  | succ spaces ih =>
      cases fuel with
      | zero => omega
      | succ fuel =>
          have hGoOn : console.cursorCol < nextTab := by
            omega
          have hSpace := movedTo_space font hRange
          have hColumn := hSpace.cursorCol
          rw [plainColumn_space, if_pos (by omega)] at hColumn
          have hLess : spaces < fuel := by omega
          rcases ih hSpace.range (by omega)
            (by rw [hSpace.cols]; exact hFits) hLess with
            ⟨final, hFinal, hMoved⟩
          refine ⟨final, ?_, hMoved.range,
            hMoved.cols.trans hSpace.cols, hMoved.cursorCol⟩
          rw [tabLoop, if_pos hGoOn]
          exact hFinal

/- However many passes it took, a tab ends at its stop. -/
theorem movedTo_of_tabLoop
    (font : Font)
    {nextTab fuel : Nat}
    {console final : Console}
    (hRange : CursorInRange console)
    (hBefore : console.cursorCol ≤ nextTab)
    (hFits : nextTab < console.cols)
    (hLoop :
      tabLoop font nextTab fuel console = some final) :
    MovedTo nextTab console final := by
  induction fuel generalizing console with
  | zero => cases hLoop
  | succ fuel ih =>
      rw [tabLoop] at hLoop
      split_ifs at hLoop with hGoOn
      · have hSpace := movedTo_space font hRange
        have hColumn := hSpace.cursorCol
        rw [plainColumn_space, if_pos (by omega)] at hColumn
        have hMoved := ih hSpace.range (by omega)
          (by rw [hSpace.cols]; exact hFits) hLoop
        exact ⟨hMoved.range, hMoved.cols.trans hSpace.cols,
          hMoved.cursorCol⟩
      · cases hLoop
        exact ⟨hRange, rfl, by omega⟩

/- A tab whose stop is not on the screen never ends. -/
theorem tabLoop_of_le
    (font : Font)
    {nextTab : Nat}
    (fuel : Nat)
    {console : Console}
    (hRange : CursorInRange console)
    (hOutside : console.cols ≤ nextTab) :
    tabLoop font nextTab fuel console = none := by
  induction fuel generalizing console with
  | zero => rfl
  | succ fuel ih =>
      have hSpace := movedTo_space font hRange
      have hGoOn : console.cursorCol < nextTab := by
        have hCol := hRange.cursorCol
        omega
      rw [tabLoop, if_pos hGoOn]
      apply ih hSpace.range
      rw [hSpace.cols]
      exact hOutside

/- The column after any character. -/
def columnAfter
    (cols col : Nat)
    (ch : UInt8) : Nat :=
  if ch = 9 then tabStop col else plainColumn cols col ch

/- A character that is not a tab past the last stop. -/
def TabFits
    (cols col : Nat)
    (ch : UInt8) : Prop :=
  ch = 9 → tabStop col < cols

instance
    (cols col : Nat)
    (ch : UInt8) :
    Decidable (TabFits cols col ch) :=
  inferInstanceAs (Decidable (_ → _))

/- Enough passes for every tab that ends. -/
def tabFuel : Nat := tabWidth + 1

theorem putcharInner_of_fits
    (font : Font)
    {ch : UInt8}
    {console : Console}
    (hRange : CursorInRange console)
    (hFits : TabFits console.cols console.cursorCol ch) :
    ∃ final,
      putcharInner font tabFuel ch console = some final ∧
        MovedTo
          (columnAfter console.cols console.cursorCol ch)
          console final := by
  unfold putcharInner columnAfter
  by_cases hTab : ch = 9
  · have hCol := hRange.cursorCol
    have hCols := hRange.cols
    have hStop : tabStop console.cursorCol < console.cols :=
      hFits hTab
    have hSpaces :
        console.cursorCol +
            (tabStop console.cursorCol - console.cursorCol) =
          tabStop console.cursorCol := by
      unfold tabStop
      omega
    simp only [hRange.ready, hTab, and_self, if_true]
    rw [nextTabStop_eq (by omega)]
    apply tabLoop_of_lt font _ hRange hSpaces hStop
    unfold tabFuel tabStop tabWidth
    omega
  · simp only [hTab, and_false, if_false]
    exact ⟨_, rfl, movedTo_putcharPlain font ch hRange⟩

theorem putcharInner_of_not_fits
    (font : Font)
    (fuel : Nat)
    {ch : UInt8}
    {console : Console}
    (hRange : CursorInRange console)
    (hNotFits :
      ¬ TabFits console.cols console.cursorCol ch) :
    putcharInner font fuel ch console = none := by
  have hCol := hRange.cursorCol
  have hCols := hRange.cols
  rcases Classical.not_imp.mp hNotFits with ⟨hTab, hOutside⟩
  unfold putcharInner
  simp only [hRange.ready, hTab, and_self, if_true]
  rw [nextTabStop_eq (by omega)]
  exact tabLoop_of_le font fuel hRange (Nat.not_lt.mp hOutside)

/- A character that was put moved the cursor as it should. -/
theorem movedTo_of_putcharInner
    (font : Font)
    {fuel : Nat}
    {ch : UInt8}
    {console final : Console}
    (hRange : CursorInRange console)
    (hPut : putcharInner font fuel ch console = some final) :
    TabFits console.cols console.cursorCol ch ∧
      MovedTo
        (columnAfter console.cols console.cursorCol ch)
        console final := by
  have hCol := hRange.cursorCol
  have hCols := hRange.cols
  by_cases hFits : TabFits console.cols console.cursorCol ch
  · refine ⟨hFits, ?_⟩
    unfold putcharInner at hPut
    unfold columnAfter
    by_cases hTab : ch = 9
    · simp only [hRange.ready, hTab, and_self, if_true]
        at hPut ⊢
      rw [nextTabStop_eq (by omega)] at hPut
      apply movedTo_of_tabLoop font hRange ?_ (hFits hTab)
        hPut
      unfold tabStop
      omega
    · simp only [hTab, and_false, if_false,
        Option.some.injEq] at hPut ⊢
      subst hPut
      exact movedTo_putcharPlain font ch hRange
  · rw [putcharInner_of_not_fits font fuel hRange hFits]
      at hPut
    cases hPut

end Framebuffer

end Whirliscope

------------------------------------------------------------
-- Runs of Console Calls
------------------------------------------------------------

namespace Whirliscope

namespace Framebuffer

open ByteMemory

/- The column after a string. -/
def columnsAfter
    (cols col : Nat)
    (s : List UInt8) : Nat :=
  s.foldl (columnAfter cols) col

/- No tab of a string starts past the last tab stop. -/
def TabsFit
    (cols : Nat) :
    Nat → List UInt8 → Prop
| _, [] => True
| col, ch :: rest =>
    TabFits cols col ch ∧
      TabsFit cols (columnAfter cols col ch) rest

instance decidableTabsFit
    (cols : Nat) :
    ∀ (col : Nat) (s : List UInt8),
      Decidable (TabsFit cols col s)
| _, [] => .isTrue trivial
| col, ch :: rest =>
    have := decidableTabsFit cols (columnAfter cols col ch)
      rest
    inferInstanceAs (Decidable (_ ∧ _))

/- The characters that a call puts. -/
def Op.bytes : Op → List UInt8
| .putchar ch => [ch]
| .write s => s
| .setColor _ _ _ => []
| .setBackground _ _ _ => []
| .clear => []

def Op.columnAfter
    (cols col : Nat)
    (op : Op) : Nat :=
  match op with
  | .clear => 0
  | op => columnsAfter cols col op.bytes

/- No tab of a run starts past the last tab stop. -/
def OpsFit
    (cols : Nat) :
    Nat → List Op → Prop
| _, [] => True
| col, op :: rest =>
    TabsFit cols col op.bytes ∧
      OpsFit cols (op.columnAfter cols col) rest

instance decidableOpsFit
    (cols : Nat) :
    ∀ (col : Nat) (ops : List Op),
      Decidable (OpsFit cols col ops)
| _, [] => .isTrue trivial
| col, op :: rest =>
    have := decidableOpsFit cols (op.columnAfter cols col)
      rest
    inferInstanceAs (Decidable (_ ∧ _))

/-
  One call: it ends within `fuel` passes only if its tabs
  fit, and then the cursor is where it should be.
-/
def Follows
    (cols : Nat)
    (fits : Nat → Prop)
    (after : Nat → Nat)
    (call : Nat → Console → Option Console) : Prop :=
  ∀ console, CursorInRange console → console.cols = cols →
    (∀ fuel final, call fuel console = some final →
      fits console.cursorCol ∧
        MovedTo (after console.cursorCol) console final) ∧
    (fits console.cursorCol →
      ∃ final, call tabFuel console = some final)

section Follows

variable {font : Font} {cols : Nat}

theorem follows_some
    {change : Console → Console}
    (hSame : ∀ console, SameCursor console (change console)) :
    Follows cols (fun _ => True) (fun col => col)
      (fun _ console => some (change console)) := by
  intro console hRange _
  refine ⟨?_, fun _ => ⟨_, rfl⟩⟩
  intro fuel final hCall
  cases hCall
  have hConsole := hSame console
  exact ⟨trivial, hRange.of_same hConsole, hConsole.cols,
    hConsole.cursorCol⟩

theorem follows_bind
    {firstFits secondFits : Nat → Prop}
    {firstAfter secondAfter : Nat → Nat}
    {first second : Nat → Console → Option Console}
    (hFirst : Follows cols firstFits firstAfter first)
    (hSecond : Follows cols secondFits secondAfter second) :
    Follows cols
      (fun col =>
        firstFits col ∧ secondFits (firstAfter col))
      (fun col => secondAfter (firstAfter col))
      (fun fuel console =>
        (first fuel console).bind (second fuel)) := by
  intro console hRange hCols
  rcases hFirst console hRange hCols with
    ⟨hFirstSome, hFirstEnds⟩
  constructor
  · intro fuel final hCall
    rcases Option.bind_eq_some_iff.mp hCall with
      ⟨middle, hMiddle, hFinal⟩
    rcases hFirstSome fuel middle hMiddle with
      ⟨hFits, hMoved⟩
    rcases
      (hSecond middle hMoved.range
        (hMoved.cols.trans hCols)).1 fuel final hFinal with
      ⟨hFits', hMoved'⟩
    rw [hMoved.cursorCol] at hFits' hMoved'
    exact ⟨⟨hFits, hFits'⟩, hMoved'.range,
      hMoved'.cols.trans hMoved.cols, hMoved'.cursorCol⟩
  · rintro ⟨hFits, hFits'⟩
    rcases hFirstEnds hFits with ⟨middle, hMiddle⟩
    rcases hFirstSome tabFuel middle hMiddle with
      ⟨-, hMoved⟩
    rw [← hMoved.cursorCol] at hFits'
    rcases
      (hSecond middle hMoved.range
        (hMoved.cols.trans hCols)).2 hFits' with
      ⟨final, hFinal⟩
    exact ⟨final, Option.bind_eq_some_iff.mpr
      ⟨middle, hMiddle, hFinal⟩⟩

theorem follows_putcharInner
    (font : Font)
    (ch : UInt8) :
    Follows cols (fun col => TabFits cols col ch)
      (fun col => columnAfter cols col ch)
      (fun fuel => putcharInner font fuel ch) := by
  rintro console hRange rfl
  constructor
  · intro fuel final hPut
    exact movedTo_of_putcharInner font hRange hPut
  · intro hFits
    rcases putcharInner_of_fits font hRange hFits with
      ⟨final, hFinal, -⟩
    exact ⟨final, hFinal⟩

/- Another description of the same call. -/
theorem Follows.congr
    {fits fits' : Nat → Prop}
    {after after' : Nat → Nat}
    {call call' : Nat → Console → Option Console}
    (hFollows : Follows cols fits after call)
    (hFits : ∀ col, fits' col ↔ fits col)
    (hAfter : ∀ col, after' col = after col)
    (hCall :
      ∀ fuel console,
        call' fuel console = call fuel console) :
    Follows cols fits' after' call' := by
  intro console hRange hCols
  rcases hFollows console hRange hCols with ⟨hSome, hEnds⟩
  constructor
  · intro fuel final hFinal
    rw [hFits, hAfter]
    exact hSome fuel final (hCall fuel console ▸ hFinal)
  · intro hFits'
    rw [hCall]
    exact hEnds ((hFits _).mp hFits')

theorem follows_putchars
    (font : Font)
    (s : List UInt8) :
    Follows cols (fun col => TabsFit cols col s)
      (fun col => columnsAfter cols col s)
      (fun fuel console =>
        s.foldlM
          (fun console ch => putcharInner font fuel ch console)
          console) := by
  induction s with
  | nil => exact follows_some SameCursor.refl
  | cons ch s ih =>
      apply (follows_bind (follows_putcharInner font ch)
        ih).congr
      · intro col
        exact Iff.rfl
      · intro col
        rfl
      · intro fuel console
        rw [List.foldlM_cons, Option.bind_eq_bind]

theorem follows_putchar
    (font : Font)
    (ch : UInt8) :
    Follows cols (fun col => TabsFit cols col [ch])
      (fun col => columnsAfter cols col [ch])
      (fun fuel => framebufferConsolePutchar font fuel ch) := by
  apply (follows_bind (follows_putcharInner font ch)
    (follows_some
      (sameCursor_flushDeferredRedraw font))).congr
  · intro col
    exact Iff.rfl
  · intro col
    rfl
  · intro fuel console
    exact Option.map_eq_bind

/- The end of a write: the batch flag and the redraw. -/
def endBatch
    (font : Font)
    (wasBatching : Bool)
    (console : Console) : Console :=
  if !wasBatching then
    flushDeferredRedraw font
      { console with batchActive := wasBatching }
  else
    { console with batchActive := wasBatching }

theorem sameCursor_endBatch
    (font : Font)
    (wasBatching : Bool)
    (console : Console) :
    SameCursor console
      (endBatch font wasBatching console) := by
  have hFlag :
      SameCursor console
        { console with batchActive := wasBatching } :=
    ⟨rfl, rfl, rfl, rfl, rfl⟩
  unfold endBatch
  split_ifs
  · exact hFlag.trans
      (sameCursor_flushDeferredRedraw font _)
  · exact hFlag

theorem follows_write
    (font : Font)
    (s : List UInt8) :
    Follows cols (fun col => TabsFit cols col s)
      (fun col => columnsAfter cols col s)
      (fun fuel => framebufferConsoleWrite font fuel s) := by
  intro console hRange hCols
  have hFlag :
      SameCursor console { console with batchActive := true } :=
    ⟨rfl, rfl, rfl, rfl, rfl⟩
  have hBoth :=
    follows_bind (follows_putchars font s)
      (follows_some
        (sameCursor_endBatch font console.batchActive))
      { console with batchActive := true }
      (hRange.of_same hFlag) hCols
  have hWrite :
      ∀ fuel, framebufferConsoleWrite font fuel s console =
        (s.foldlM
          (fun console ch => putcharInner font fuel ch console)
          { console with batchActive := true }).bind
          fun written =>
            some (endBatch font console.batchActive
              written) := by
    intro fuel
    simp only [framebufferConsoleWrite, hRange.ready,
      Bool.not_true, Bool.false_eq_true, if_false,
      endBatch, Option.bind_eq_bind]
    cases console.batchActive <;> rfl
  constructor
  · intro fuel final hFinal
    have hSame := (hWrite fuel).symm.trans hFinal
    rcases hBoth.1 fuel final hSame with ⟨hFits, hMoved⟩
    exact ⟨hFits.1, hMoved.range, hMoved.cols,
      hMoved.cursorCol⟩
  · intro hFits
    rcases hBoth.2 ⟨hFits, trivial⟩ with ⟨final, hFinal⟩
    exact ⟨final, (hWrite tabFuel).trans hFinal⟩

/- Clearing puts the cursor in the corner. -/
theorem follows_clear :
    Follows cols (fun _ => True) (fun _ => 0)
      (fun _ console =>
        some (framebufferConsoleClear console)) := by
  intro console hRange _
  refine ⟨?_, fun _ => ⟨_, rfl⟩⟩
  intro fuel final hCall
  cases hCall
  have hSame :=
    (sameCursor_clearRect console 0 0 console.width
      console.height).trans
      (sameCursor_clearBacking
        (clearRect console 0 0 console.width console.height))
  have hCol := hRange.cursorCol
  have hRow := hRange.cursorRow
  unfold framebufferConsoleClear
  rw [hRange.ready]
  refine ⟨trivial, ⟨?_, ?_, ?_, ?_, ?_⟩, hSame.cols, rfl⟩
  · exact hSame.ready.trans hRange.ready
  · exact hSame.cols ▸ hRange.cols
  · exact hSame.rows ▸ hRange.rows
  · exact hSame.cols ▸ Nat.zero_lt_of_lt hCol
  · exact hSame.rows ▸ Nat.zero_lt_of_lt hRow

theorem follows_op
    (font : Font)
    (op : Op) :
    Follows cols (fun col => TabsFit cols col op.bytes)
      (op.columnAfter cols)
      (fun fuel => op.run font fuel) := by
  cases op with
  | putchar ch => exact follows_putchar font ch
  | write s => exact follows_write font s
  | setColor red green blue =>
      apply follows_some
      intro console
      unfold framebufferConsoleSetColor
      split_ifs <;> exact ⟨rfl, rfl, rfl, rfl, rfl⟩
  | setBackground red green blue =>
      apply follows_some
      intro console
      unfold framebufferConsoleSetBackground
      split_ifs <;> exact ⟨rfl, rfl, rfl, rfl, rfl⟩
  | clear => exact follows_clear

/- The column after a run of calls. -/
def opsColumnAfter
    (cols col : Nat)
    (ops : List Op) : Nat :=
  ops.foldl (fun col op => op.columnAfter cols col) col

theorem follows_ops
    (font : Font)
    (ops : List Op) :
    Follows cols (fun col => OpsFit cols col ops)
      (fun col => opsColumnAfter cols col ops)
      (fun fuel => runOps font fuel ops) := by
  induction ops with
  | nil => exact follows_some SameCursor.refl
  | cons op ops ih =>
      apply (follows_bind (follows_op font op) ih).congr
      · intro col
        exact Iff.rfl
      · intro col
        rfl
      · intro fuel console
        unfold runOps
        rw [List.foldlM_cons, Option.bind_eq_bind]

end Follows

/- A cell is at least two pixels wide and high. -/
theorem quotient_le
    (size : UInt64)
    (pixels : Nat) :
    size.toNat / ((pixels + 1) * fontScale) ≤ 2 ^ 63 := by
  have hSize := size.toNat_lt
  have hCell : 2 ≤ (pixels + 1) * fontScale := by
    unfold fontScale
    omega
  calc size.toNat / ((pixels + 1) * fontScale)
      ≤ size.toNat / 2 :=
        Nat.div_le_div_left hCell (by decide)
    _ ≤ 2 ^ 63 := by omega

/- An initialised console has its cursor in the corner. -/
theorem cursorInRange_of_init
    {font : Font}
    {framebuffer : Option LimineFramebuffer}
    {before console : Console}
    (hInit :
      framebufferConsoleInit font framebuffer before =
        (true, console)) :
    CursorInRange console ∧ console.cursorCol = 0 ∧
      ∃ screen, framebuffer = some screen ∧
        console.cols =
          screen.width.toNat / font.cellWidth := by
  unfold framebufferConsoleInit at hInit
  cases framebuffer with
  | none => cases hInit
  | some framebuffer =>
      cases hAddress : framebuffer.address with
      | none =>
          simp only [hAddress] at hInit
          cases hInit
      | some base =>
          simp only [hAddress] at hInit
          split_ifs at hInit with hBpp hEmpty
          · cases hInit
          · cases hInit
          · rw [not_or] at hEmpty
            have hRange :
                CursorInRange
                  { assignFramebuffer font framebuffer base
                      before with
                    fg :=
                      makeColor
                        (assignFramebuffer font framebuffer
                          base before) 0xff 0xff 0xff
                    bg :=
                      makeColor
                        (assignFramebuffer font framebuffer
                          base before) 0 0 0
                    ready := true } :=
              ⟨rfl, quotient_le framebuffer.width font.width,
                quotient_le framebuffer.height font.height,
                Nat.pos_of_ne_zero hEmpty.1,
                Nat.pos_of_ne_zero hEmpty.2⟩
            rcases (follows_clear _ hRange rfl).1 0 _ rfl with
              ⟨-, hMoved⟩
            cases hInit
            exact ⟨hMoved.range, hMoved.cursorCol,
              framebuffer, rfl, hMoved.cols⟩

/- A run that ends with the cursor on the screen. -/
def Settles
    (font : Font)
    (ops : List Op)
    (console : Console) : Prop :=
  ∃ fuel final,
    runOps font fuel ops console = some final ∧
      final.cursorCol < final.cols ∧
      final.cursorRow < final.rows

theorem settles_iff
    (font : Font)
    {console : Console}
    (hRange : CursorInRange console)
    (ops : List Op) :
    Settles font ops console ↔
      OpsFit console.cols console.cursorCol ops := by
  rcases follows_ops font ops console hRange rfl with
    ⟨hSome, hEnds⟩
  constructor
  · rintro ⟨fuel, final, hRun, -⟩
    exact (hSome fuel final hRun).1
  · intro hFits
    rcases hEnds hFits with ⟨final, hFinal⟩
    have hMoved := (hSome tabFuel final hFinal).2
    exact ⟨tabFuel, final, hFinal, hMoved.range.cursorCol,
      hMoved.range.cursorRow⟩

/- The calls made before a call of a fitting run fit. -/
theorem OpsFit.of_append
    {cols col : Nat}
    {ops rest : List Op}
    (hFit : OpsFit cols col (ops ++ rest)) :
    OpsFit cols col ops := by
  induction ops generalizing col with
  | nil => trivial
  | cons op ops ih => exact ⟨hFit.1, ih hFit.2⟩

/-
  Every call of a run on an initialised console ends with the
  cursor on the screen exactly when no tab of the run starts
  past the last tab stop.
-/
theorem opsFit_iff
    {font : Font}
    {framebuffer : Option LimineFramebuffer}
    {before console : Console}
    (hInit :
      framebufferConsoleInit font framebuffer before =
        (true, console))
    (ops : List Op) :
    (∀ done, done <+: ops → Settles font done console) ↔
      OpsFit console.cols 0 ops := by
  rcases cursorInRange_of_init hInit with
    ⟨hRange, hCol, -⟩
  constructor
  · intro hSettles
    rw [← hCol]
    exact (settles_iff font hRange ops).mp
      (hSettles ops (List.prefix_refl ops))
  · rintro hFit done ⟨rest, rfl⟩
    apply (settles_iff font hRange done).mpr
    rw [hCol]
    exact hFit.of_append

/- A font of 5 by 7 pixels and a screen of 1024 by 768. -/
def sampleFont : Font where
  width := 5
  height := 7
  first := 32
  last := 128
  rows := fun _ _ => 0

def sampleFramebuffer : LimineFramebuffer where
  address := some 0x80000000
  width := 1024
  height := 768
  pitch := 4096
  bpp := 32
  redMaskSize := 8
  redMaskShift := 16
  greenMaskSize := 8
  greenMaskShift := 8
  blueMaskSize := 8
  blueMaskShift := 0

def blankConsole : Console where
  base := 0
  width := 0
  height := 0
  pitch := 0
  redMaskSize := 0
  redMaskShift := 0
  greenMaskSize := 0
  greenMaskShift := 0
  blueMaskSize := 0
  blueMaskShift := 0
  fg := 0
  bg := 0
  cols := 0
  rows := 0
  cursorCol := 0
  cursorRow := 0
  backingReady := false
  batchActive := false
  redrawDeferred := false
  ready := false
  cells := fun _ _ => { ch := 0, fg := 0, bg := 0 }
  memory := zeros

/- The initialised console has 85 columns. -/
def sampleConsole : Console :=
  (framebufferConsoleInit sampleFont (some sampleFramebuffer)
    blankConsole).2

theorem sampleConsole_init :
    framebufferConsoleInit sampleFont
        (some sampleFramebuffer) blankConsole =
      (true, sampleConsole) :=
  Prod.ext (by decide) rfl

theorem sampleConsole_cols :
    sampleConsole.cols = 85 := by
  rcases cursorInRange_of_init sampleConsole_init with
    ⟨-, -, screen, hScreen, hCols⟩
  cases hScreen
  exact hCols

/- A tab at the start of a line ends. -/
theorem sampleConsole_settles :
    framebufferConsoleInit sampleFont
          (some sampleFramebuffer) blankConsole =
        (true, sampleConsole) ∧
      ∀ done, done <+: [Op.putchar 9] →
        Settles sampleFont done sampleConsole := by
  refine ⟨sampleConsole_init, ?_⟩
  apply (opsFit_iff sampleConsole_init [Op.putchar 9]).mpr
  rw [sampleConsole_cols]
  decide

/- The last of 22 tabs in a row does not. -/
theorem sampleConsole_stuck :
    ¬ ∀ (font : Font)
        (framebuffer : Option LimineFramebuffer)
        (before console : Console),
      framebufferConsoleInit font framebuffer before =
          (true, console) →
        ∀ ops, Settles font ops console := by
  intro hSettles
  have hLast :=
    hSettles sampleFont (some sampleFramebuffer) blankConsole
      sampleConsole sampleConsole_init
      [.write (List.replicate 22 9)]
  have hRange := cursorInRange_of_init sampleConsole_init
  rw [settles_iff sampleFont hRange.1, hRange.2.1,
    sampleConsole_cols] at hLast
  revert hLast
  decide

end Framebuffer

end Whirliscope
