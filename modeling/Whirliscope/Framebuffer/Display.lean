import Whirliscope.Framebuffer.Cursor
import Whirliscope.Framebuffer.Drawing

/-
  The three ways in which the console gets characters onto
  the screen: at once, after a batch, and by copying pixels.

  All of them refine one screen of cells: whenever no redraw
  is pending, the pixels of the grid are those of the cells.

  Key definitions include:
    * `Screen`, `Screen.step`
    * `Displays`, `Shows`
    * `SameDisplay`

  Main theorem:
    * `displays_agree`
-/

------------------------------------------------------------
-- The Screen
------------------------------------------------------------

namespace Whirliscope

namespace Framebuffer

open ByteMemory

/- What a console shows, apart from how it is drawn. -/
structure Screen where
  cells : Nat → Nat → FramebufferCell
  fg : Nat
  bg : Nat
  cursorCol : Nat
  cursorRow : Nat

namespace Screen

/- A cell in the current colours. -/
def cell
    (screen : Screen)
    (ch : UInt8) : FramebufferCell where
  ch := ch
  fg := screen.fg
  bg := screen.bg

/- Assign one cell. -/
def setCell
    (screen : Screen)
    (col row : Nat)
    (ch : UInt8) : Screen :=
  { screen with
    cells := fun i j =>
      if i = row ∧ j = col then screen.cell ch
      else screen.cells i j }

def withCursor
    (screen : Screen)
    (col row : Nat) : Screen :=
  { screen with cursorCol := col, cursorRow := row }

/- All rows move up, and a blank row comes in. -/
def scroll
    (screen : Screen)
    (rows : Nat) : Screen :=
  { screen with
    cells := fun i j =>
      if i + 1 < rows then screen.cells (i + 1) j
      else screen.cell 32 }

def newline
    (screen : Screen)
    (rows : Nat) : Screen :=
  if screen.cursorRow + 1 < rows then
    screen.withCursor 0 (screen.cursorRow + 1)
  else
    (screen.scroll rows).withCursor 0 (rows - 1)

/- A character that is not a tab. -/
def put
    (screen : Screen)
    (cols rows : Nat)
    (ch : UInt8) : Screen :=
  if ch = 10 then
    screen.newline rows
  else if ch = 13 then
    screen.withCursor 0 screen.cursorRow
  else if ch = 8 then
    if screen.cursorCol > 0 then
      (screen.setCell (screen.cursorCol - 1)
        screen.cursorRow 32).withCursor
          (screen.cursorCol - 1) screen.cursorRow
    else
      screen
  else if ch < 32 then
    screen
  else
    let drawn :=
      screen.setCell screen.cursorCol screen.cursorRow ch
    if screen.cursorCol + 1 < cols then
      drawn.withCursor (screen.cursorCol + 1)
        screen.cursorRow
    else
      drawn.newline rows

def clear
    (screen : Screen) : Screen :=
  { screen with
    cells := fun _ _ => screen.cell 32
    cursorCol := 0
    cursorRow := 0 }

/-
  A call of the console. `mask` makes a colour of its
  components.
-/
def step
    (cols rows : Nat)
    (mask : UInt8 → UInt8 → UInt8 → Nat)
    (screen : Screen) : Op → Screen
| .putchar ch => screen.put cols rows ch
| .write s => s.foldl (fun screen ch => screen.put cols rows ch) screen
| .setColor red green blue =>
    { screen with fg := mask red green blue }
| .setBackground red green blue =>
    { screen with bg := mask red green blue }
| .clear => screen.clear

/- The colour of a pixel of the grid. -/
noncomputable def pixel
    (screen : Screen)
    (font : Font)
    (x y : Nat) : Nat :=
  cellPixel font
    (screen.cells (y / font.cellHeight)
      (x / font.cellWidth))
    (x % font.cellWidth) (y % font.cellHeight)

/- Colours are 32-bit values. -/
structure Sound (screen : Screen) : Prop where
  fg : screen.fg < 2 ^ 32
  bg : screen.bg < 2 ^ 32
  cells : ∀ i j, (screen.cells i j).Sound

theorem Sound.cell
    {screen : Screen}
    (hSound : screen.Sound)
    (ch : UInt8) :
    (screen.cell ch).Sound :=
  ⟨hSound.fg, hSound.bg⟩

theorem Sound.setCell
    {screen : Screen}
    (hSound : screen.Sound)
    (col row : Nat)
    (ch : UInt8) :
    (screen.setCell col row ch).Sound where
  fg := hSound.fg
  bg := hSound.bg
  cells := by
    intro i j
    unfold Screen.setCell
    dsimp only
    split_ifs
    · exact hSound.cell ch
    · exact hSound.cells i j

theorem Sound.scroll
    {screen : Screen}
    (hSound : screen.Sound)
    (rows : Nat) :
    (screen.scroll rows).Sound where
  fg := hSound.fg
  bg := hSound.bg
  cells := by
    intro i j
    unfold Screen.scroll
    dsimp only
    split_ifs
    · exact hSound.cells (i + 1) j
    · exact hSound.cell 32

end Screen

end Framebuffer

end Whirliscope

------------------------------------------------------------
-- Drawing Refines the Screen
------------------------------------------------------------

namespace Whirliscope

namespace Framebuffer

open ByteMemory

section

variable {font : Font}

/-
  The console displays the cells of a screen. A redraw can be
  pending only when the backing store is in use.
-/
structure Displays
    (L : Layout font)
    (mask : UInt8 → UInt8 → UInt8 → Nat)
    (console : Console)
    (screen : Screen) : Prop where
  on : console.On L
  ready : console.ready = true
  mask :
    ∀ red green blue,
      makeColor console red green blue = mask red green blue
  fg : console.fg = screen.fg
  bg : console.bg = screen.bg
  sound : screen.Sound
  cells :
    console.backingReady = true →
      ∀ row col, row < L.rows → col < L.cols →
        console.cells row col = screen.cells row col
  deferred :
    console.redrawDeferred = true →
      console.backingReady = true
  pixels :
    console.redrawDeferred = false →
      ∀ x y, x / font.cellWidth < L.cols →
        y / font.cellHeight < L.rows →
          L.raster.pixel console.memory x y =
            screen.pixel font x y

variable {L : Layout font}
variable {mask : UInt8 → UInt8 → UInt8 → Nat}
variable {console : Console} {screen : Screen}

theorem Layout.in_width
    (L : Layout font)
    {x : Nat}
    (hX : x / font.cellWidth < L.cols) :
    x < L.raster.width := by
  have hLess := (Nat.div_lt_iff_lt_mul (cellWidth_pos font)).mp hX
  exact Nat.lt_of_lt_of_le hLess L.wide

theorem Displays.cell_eq
    (hDisplays : Displays L mask console screen)
    (ch : UInt8) :
    console.cell ch = screen.cell ch := by
  unfold Console.cell Screen.cell
  rw [hDisplays.fg, hDisplays.bg]

theorem Console.On.assignCell
    (hOn : console.On L)
    (col row : Nat)
    (cell : FramebufferCell) :
    (console.assignCell col row cell).On L :=
  ⟨hOn.base, hOn.pitch, hOn.width, hOn.height, hOn.cols,
    hOn.rows⟩

/- The cursor is no part of what is displayed. -/
theorem Displays.withCursor
    (hDisplays : Displays L mask console screen)
    (col row col' row' : Nat) :
    Displays L mask (console.withCursor col row)
      (screen.withCursor col' row') where
  on :=
    { base := hDisplays.on.base
      pitch := hDisplays.on.pitch
      width := hDisplays.on.width
      height := hDisplays.on.height
      cols := hDisplays.on.cols
      rows := hDisplays.on.rows }
  ready := hDisplays.ready
  mask := hDisplays.mask
  fg := hDisplays.fg
  bg := hDisplays.bg
  sound := ⟨hDisplays.sound.fg, hDisplays.sound.bg,
    hDisplays.sound.cells⟩
  cells := hDisplays.cells
  deferred := hDisplays.deferred
  pixels := hDisplays.pixels

/- New cells and new pixels on the same frame. -/
theorem Displays.update
    (hDisplays : Displays L mask console screen)
    {cells shown : Nat → Nat → FramebufferCell}
    {memory : Bytes}
    {pending : Bool}
    (hSound : ∀ i j, (shown i j).Sound)
    (hCells :
      console.backingReady = true →
        ∀ row col, row < L.rows → col < L.cols →
          cells row col = shown row col)
    (hDeferred :
      pending = true → console.backingReady = true)
    (hPixels :
      pending = false →
        ∀ x y, x / font.cellWidth < L.cols →
          y / font.cellHeight < L.rows →
            L.raster.pixel memory x y =
              ({ screen with cells := shown } :
                Screen).pixel font x y) :
    Displays L mask
      { console with
        cells := cells
        memory := memory
        redrawDeferred := pending }
      { screen with cells := shown } where
  on :=
    { base := hDisplays.on.base
      pitch := hDisplays.on.pitch
      width := hDisplays.on.width
      height := hDisplays.on.height
      cols := hDisplays.on.cols
      rows := hDisplays.on.rows }
  ready := hDisplays.ready
  mask := hDisplays.mask
  fg := hDisplays.fg
  bg := hDisplays.bg
  sound := ⟨hDisplays.sound.fg, hDisplays.sound.bg, hSound⟩
  cells := hCells
  deferred := hDeferred
  pixels := hPixels

/- Drawing one cell of the screen. -/
theorem pixel_drawCell
    {paint : Bytes → Bytes}
    {memory : Bytes}
    {cell : FramebufferCell}
    {col row : Nat}
    (hPaints :
      Paints L.raster paint (InCell font col row) fun x y =>
        cellPixel font cell (x % font.cellWidth)
          (y % font.cellHeight))
    (hPixels :
      ∀ x y, x / font.cellWidth < L.cols →
        y / font.cellHeight < L.rows →
          L.raster.pixel memory x y = screen.pixel font x y)
    {x y : Nat}
    (hX : x / font.cellWidth < L.cols)
    (hY : y / font.cellHeight < L.rows) :
    L.raster.pixel (paint memory) x y =
      ({ screen with
        cells := fun i j =>
          if i = row ∧ j = col then cell
          else screen.cells i j } : Screen).pixel font x y := by
  unfold Screen.pixel
  dsimp only
  by_cases hIn : InCell font col row x y
  · rw [hPaints.inside memory x y (L.in_width hX) hIn,
      if_pos ⟨hIn.2, hIn.1⟩]
  · rw [hPaints.outside memory x y (L.in_width hX) hIn,
      hPixels x y hX hY,
      if_neg fun hSame => hIn ⟨hSame.2, hSame.1⟩]
    rfl

/- Redrawing the grid from the backing store. -/
theorem pixel_redraw
    (hOn : console.On L)
    (hBacking : console.backingReady = true)
    (hSound : screen.Sound)
    (hCells :
      ∀ row col, row < L.rows → col < L.cols →
        console.cells row col = screen.cells row col)
    {x y : Nat}
    (hX : x / font.cellWidth < L.cols)
    (hY : y / font.cellHeight < L.rows) :
    L.raster.pixel (redrawFromBacking font console).memory
        x y =
      screen.pixel font x y := by
  have hSound :
      ∀ row col, row < L.rows → col < L.cols →
        (console.cells row col).Sound := by
    intro row col hRow hCol
    rw [hCells row col hRow hCol]
    exact hSound.cells row col
  have hPaints := paints_redraw hOn hSound
  unfold redrawFromBacking
  rw [if_neg (by simp [hBacking])]
  dsimp only
  rw [hOn.cols, hOn.rows,
    hPaints.inside _ x y (L.in_width hX) ⟨hX, hY⟩,
    hCells _ _ hY hX]
  rfl

theorem redrawFromBacking_eq
    (hBacking : console.backingReady = true) :
    redrawFromBacking font console =
      { console with
        memory := (redrawFromBacking font console).memory } := by
  unfold redrawFromBacking
  rw [if_neg (by simp [hBacking])]

/- After a flush no redraw is pending. -/
theorem Displays.flush
    (hDisplays : Displays L mask console screen) :
    Displays L mask (flushDeferredRedraw font console)
        screen ∧
      (flushDeferredRedraw font console).redrawDeferred =
        false := by
  unfold flushDeferredRedraw
  by_cases hPending : console.redrawDeferred = true
  · have hBacking := hDisplays.deferred hPending
    rw [if_neg (by simp [hPending]),
      redrawFromBacking_eq hBacking]
    refine ⟨?_, rfl⟩
    exact hDisplays.update hDisplays.sound.cells
      hDisplays.cells (fun hFalse => by cases hFalse)
      fun _ _ _ hX hY =>
        pixel_redraw hDisplays.on hBacking hDisplays.sound
          (hDisplays.cells hBacking) hX hY
  · rw [if_pos (by simpa using hPending)]
    exact ⟨hDisplays, by simpa using hPending⟩

/- Drawing a character into a cell of the grid. -/
theorem Displays.drawCharAt
    (hDisplays : Displays L mask console screen)
    {col row : Nat}
    (hCol : col < L.cols)
    (hRow : row < L.rows)
    (ch : UInt8) :
    Displays L mask (drawCharAt font console col row ch)
      (screen.setCell col row ch) := by
  have hCell := hDisplays.cell_eq ch
  have hSound := hDisplays.sound.setCell col row ch
  have hCells :
      console.backingReady = true →
        ∀ i j, i < L.rows → j < L.cols →
          (if i = row ∧ j = col then console.cell ch
            else console.cells i j) =
            (screen.setCell col row ch).cells i j := by
    intro hBacking i j hI hJ
    rw [hCell, hDisplays.cells hBacking i j hI hJ]
    rfl
  have hDrawn :
      ∀ stored : Console, stored.On L →
        stored.memory = console.memory →
          console.redrawDeferred = false →
            ∀ x y, x / font.cellWidth < L.cols →
              y / font.cellHeight < L.rows →
                L.raster.pixel
                    (drawCellAt font stored col row
                      (console.cell ch) stored.memory)
                    x y =
                  (screen.setCell col row ch).pixel font x
                    y := by
    intro stored hOn hMemory hNow x y hX hY
    rw [hMemory, hCell]
    exact pixel_drawCell
      (paints_drawCellAt hOn hCol hRow
        (hDisplays.sound.cell ch))
      (hDisplays.pixels hNow) hX hY
  unfold Framebuffer.drawCharAt
  dsimp only
  by_cases hBacking : console.backingReady = true
  · rw [if_pos hBacking]
    by_cases hPending : console.redrawDeferred = true
    · rw [if_pos hPending]
      exact hDisplays.update hSound.cells hCells
        hDisplays.deferred fun hNow =>
          absurd hPending (by simp [hNow])
    · rw [if_neg hPending]
      apply hDisplays.update hSound.cells hCells
        hDisplays.deferred
      exact hDrawn _ (hDisplays.on.assignCell col row _) rfl
  · have hNow : console.redrawDeferred = false := by
      by_contra hPending
      exact hBacking (hDisplays.deferred (by simpa using hPending))
    rw [if_neg hBacking, if_neg (by simp [hNow])]
    apply hDisplays.update hSound.cells
      (fun hReady => absurd hReady hBacking)
      hDisplays.deferred
    exact hDrawn console hDisplays.on rfl

/- Without the backing store nothing is put off. -/
theorem Displays.now
    (hDisplays : Displays L mask console screen)
    (hNone : ¬ console.backingReady = true) :
    console.redrawDeferred = false := by
  by_contra hPending
  exact hNone (hDisplays.deferred (by simpa using hPending))

/- Clearing a cell of the grid, in pixels and in cells. -/
theorem Displays.clearCell
    (hDisplays : Displays L mask console screen)
    {col row : Nat}
    (hCol : col < L.cols)
    (hRow : row < L.rows) :
    Displays L mask
      (clearCellAt font (setCell console col row 32) col row)
      (screen.setCell col row 32) := by
  have hCell := hDisplays.cell_eq 32
  have hSound := hDisplays.sound.setCell col row 32
  have hDrawn :
      ∀ stored : Console, stored.On L →
        stored.bg = screen.bg →
          stored.memory = console.memory →
            console.redrawDeferred = false →
              ∀ x y, x / font.cellWidth < L.cols →
                y / font.cellHeight < L.rows →
                  L.raster.pixel
                      (clearRectColor stored
                        (col * font.cellWidth)
                        (row * font.cellHeight)
                        font.cellWidth font.cellHeight
                        stored.bg stored.memory)
                      x y =
                    (screen.setCell col row 32).pixel font
                      x y := by
    intro stored hOn hBg hMemory hNow x y hX hY
    rw [hBg, hMemory]
    have hRect :=
      paints_cellRect hOn hCol hRow hDisplays.sound.bg
    have hPaints :
        Paints L.raster _ (InCell font col row) fun x y =>
          cellPixel font (screen.cell 32)
            (x % font.cellWidth) (y % font.cellHeight) :=
      hRect.congr (fun _ _ _ => Iff.rfl) fun _ _ _ =>
        cellPixel_space rfl _ _
    exact pixel_drawCell hPaints (hDisplays.pixels hNow) hX hY
  unfold clearCellAt clearRect Framebuffer.setCell
  by_cases hBacking : console.backingReady = true
  · rw [if_neg (by simp [hBacking])]
    apply hDisplays.update hSound.cells _ hDisplays.deferred
    · exact hDrawn _ (hDisplays.on.assignCell col row _)
        hDisplays.bg rfl
    · intro _ i j hI hJ
      unfold Console.assignCell
      dsimp only
      rw [hCell, hDisplays.cells hBacking i j hI hJ]
      rfl
  · rw [if_pos (by simpa using hBacking)]
    apply hDisplays.update hSound.cells
      (fun hReady => absurd hReady hBacking)
      hDisplays.deferred
    exact hDrawn console hDisplays.on hDisplays.bg rfl

/- The cells of the grid after they moved up. -/
theorem Displays.movedCells
    (hDisplays : Displays L mask console screen)
    (hBacking : console.backingReady = true)
    {row col : Nat}
    (hRow : row < L.rows)
    (hCol : col < L.cols) :
    (clearBackingRow (moveCellsUp console)
        (console.rows - 1)).cells row col =
      (screen.scroll L.rows).cells row col := by
  have hCell := hDisplays.cell_eq 32
  have hCells := hDisplays.cells hBacking
  unfold clearBackingRow moveCellsUp Screen.scroll
  rw [if_neg (by simp [hBacking])]
  dsimp only
  rw [hDisplays.on.rows, hDisplays.on.cols]
  by_cases hLast : row + 1 < L.rows
  · rw [if_neg (by omega), if_pos ⟨hLast, hCol⟩,
      if_pos hLast, hCells _ _ hLast hCol]
  · rw [if_pos (by omega), if_neg hLast]
    exact hCell

/- The pixels after a scroll without the backing store. -/
theorem Displays.pixel_scrolled
    (hDisplays : Displays L mask console screen)
    (hNow : console.redrawDeferred = false)
    {x y : Nat}
    (hX : x / font.cellWidth < L.cols)
    (hY : y / font.cellHeight < L.rows) :
    L.raster.pixel
        (clearRect (copyScreenUp font console) 0
          ((console.rows - 1) * font.cellHeight)
          (console.cols * font.cellWidth)
          font.cellHeight).memory
        x y =
      (screen.scroll L.rows).pixel font x y := by
  have hHeight := cellHeight_pos font
  have hOn : (copyScreenUp font console).On L :=
    ⟨hDisplays.on.base, hDisplays.on.pitch,
      hDisplays.on.width, hDisplays.on.height,
      hDisplays.on.cols, hDisplays.on.rows⟩
  have hLess :=
    (Nat.div_lt_iff_lt_mul (cellWidth_pos font)).mp hX
  have hLast :=
    (L.cell_inside L.colsPos
      (show L.rows - 1 < L.rows by
        have hRows := L.rowsPos
        omega)).2
  have hWide := L.wide
  have hClear :=
    paints_clearRectColor hOn
      (show 0 + L.cols * font.cellWidth ≤ L.raster.width by
        omega)
      hLast hDisplays.sound.bg
  have hRow :
      y / font.cellHeight = L.rows - 1 ↔
        (L.rows - 1) * font.cellHeight ≤ y ∧
          y < (L.rows - 1) * font.cellHeight +
            font.cellHeight := by
    rw [Nat.div_eq_iff hHeight]
    omega
  unfold clearRect
  dsimp only
  have hBg : (copyScreenUp font console).bg = screen.bg :=
    hDisplays.bg
  rw [hBg, hDisplays.on.cols, hDisplays.on.rows]
  unfold Screen.pixel Screen.scroll
  dsimp only
  by_cases hBottom : y / font.cellHeight = L.rows - 1
  · rw [hClear.inside _ x y (L.in_width hX)
        ⟨⟨Nat.zero_le x, by omega⟩, hRow.mp hBottom⟩,
      if_neg (by omega)]
    have hBlank : (screen.cell 32).ch = 32 := rfl
    exact (cellPixel_space hBlank _ _).symm
  · have hAbove :
        y / font.cellHeight < L.rows - 1 := by
      omega
    have hCopied :=
      (Nat.div_lt_iff_lt_mul hHeight).mp hAbove
    have hNext :
        (y + font.cellHeight) / font.cellHeight =
          y / font.cellHeight + 1 :=
      Nat.add_div_right y hHeight
    have hInside : y / font.cellHeight + 1 < L.rows :=
      Nat.add_lt_of_lt_sub hAbove
    have hSource :
        (y + font.cellHeight) / font.cellHeight < L.rows := by
      rw [hNext]
      exact hInside
    rw [hClear.outside _ x y (L.in_width hX) fun hIn =>
        hBottom (hRow.mpr hIn.2),
      pixel_copyScreenUp hDisplays.on (L.in_width hX),
      if_pos ⟨hCopied, hLess⟩,
      hDisplays.pixels hNow x (y + font.cellHeight) hX
        hSource,
      if_pos hInside]
    unfold Screen.pixel
    rw [hNext, Nat.add_mod_right]

theorem Displays.scroll
    (hDisplays : Displays L mask console screen) :
    Displays L mask (Framebuffer.scroll font console)
      (screen.scroll L.rows) := by
  have hSound := hDisplays.sound.scroll L.rows
  unfold Framebuffer.scroll
  by_cases hBacking : console.backingReady = true
  · rw [if_pos hBacking]
    dsimp only
    have hFrame :
        clearBackingRow (moveCellsUp console)
            (console.rows - 1) =
          { console with
            cells :=
              (clearBackingRow (moveCellsUp console)
                (console.rows - 1)).cells } := by
      unfold clearBackingRow moveCellsUp
      rw [if_neg (by simp [hBacking])]
    have hCells :
        ∀ row col, row < L.rows → col < L.cols →
          (clearBackingRow (moveCellsUp console)
              (console.rows - 1)).cells row col =
            (screen.scroll L.rows).cells row col :=
      fun _ _ hRow hCol =>
        hDisplays.movedCells hBacking hRow hCol
    generalize
      (clearBackingRow (moveCellsUp console)
        (console.rows - 1)).cells = cells at hFrame hCells
    rw [hFrame]
    dsimp only
    by_cases hBatch : console.batchActive = true
    · rw [if_pos hBatch]
      exact hDisplays.update hSound.cells (fun _ => hCells)
        (fun _ => hBacking) fun hFalse => by cases hFalse
    · have hMoved :
          ({ console with cells := cells } :
            Console).backingReady = true := hBacking
      have hOn : ({ console with cells := cells } :
          Console).On L :=
        ⟨hDisplays.on.base, hDisplays.on.pitch,
          hDisplays.on.width, hDisplays.on.height,
          hDisplays.on.cols, hDisplays.on.rows⟩
      rw [if_neg hBatch, redrawFromBacking_eq hMoved]
      exact hDisplays.update hSound.cells (fun _ => hCells)
        hDisplays.deferred fun _ _ _ hX hY =>
          pixel_redraw hOn hMoved hSound hCells hX hY
  · rw [if_neg hBacking]
    apply hDisplays.update hSound.cells
      (fun hReady => absurd hReady hBacking)
      hDisplays.deferred
    exact fun hNow x y hX hY =>
      hDisplays.pixel_scrolled hNow hX hY

/- New colours, for characters that are still to come. -/
theorem Displays.setColours
    (hDisplays : Displays L mask console screen)
    {fg bg shownFg shownBg : Nat}
    (hFg : fg = shownFg)
    (hBg : bg = shownBg)
    (hFgLess : shownFg < 2 ^ 32)
    (hBgLess : shownBg < 2 ^ 32) :
    Displays L mask { console with fg := fg, bg := bg }
      { screen with fg := shownFg, bg := shownBg } where
  on :=
    { base := hDisplays.on.base
      pitch := hDisplays.on.pitch
      width := hDisplays.on.width
      height := hDisplays.on.height
      cols := hDisplays.on.cols
      rows := hDisplays.on.rows }
  ready := hDisplays.ready
  mask := hDisplays.mask
  fg := hFg
  bg := hBg
  sound := ⟨hFgLess, hBgLess, hDisplays.sound.cells⟩
  cells := hDisplays.cells
  deferred := hDisplays.deferred
  pixels := hDisplays.pixels

/- Entering and leaving a batch draws nothing. -/
theorem Displays.withBatch
    (hDisplays : Displays L mask console screen)
    (active : Bool) :
    Displays L mask { console with batchActive := active }
      screen where
  on :=
    { base := hDisplays.on.base
      pitch := hDisplays.on.pitch
      width := hDisplays.on.width
      height := hDisplays.on.height
      cols := hDisplays.on.cols
      rows := hDisplays.on.rows }
  ready := hDisplays.ready
  mask := hDisplays.mask
  fg := hDisplays.fg
  bg := hDisplays.bg
  sound := hDisplays.sound
  cells := hDisplays.cells
  deferred := hDisplays.deferred
  pixels := hDisplays.pixels

theorem colorComponent_lt
    (value maskSize maskShift : Nat) :
    colorComponent value maskSize maskShift < 2 ^ 32 := by
  unfold colorComponent
  split
  · exact Nat.two_pow_pos 32
  · exact wrap_lt 32 _

theorem makeColor_lt
    (console : Console)
    (red green blue : UInt8) :
    makeColor console red green blue < 2 ^ 32 :=
  Nat.or_lt_two_pow
    (Nat.or_lt_two_pow (colorComponent_lt _ _ _)
      (colorComponent_lt _ _ _))
    (colorComponent_lt _ _ _)

end

end Framebuffer

end Whirliscope

------------------------------------------------------------
-- Calls Refine the Screen
------------------------------------------------------------

namespace Whirliscope

namespace Framebuffer

open ByteMemory

section

variable {font : Font} {L : Layout font}
variable {mask : UInt8 → UInt8 → UInt8 → Nat}
variable {console : Console} {screen : Screen}

/- The console displays the screen, with the same cursor. -/
structure Shows
    (L : Layout font)
    (mask : UInt8 → UInt8 → UInt8 → Nat)
    (console : Console)
    (screen : Screen) : Prop where
  displays : Displays L mask console screen
  cursorCol : console.cursorCol = screen.cursorCol
  cursorRow : console.cursorRow = screen.cursorRow
  colInside : screen.cursorCol < L.cols
  rowInside : screen.cursorRow < L.rows

/- The cursor goes to the same place of the grid. -/
theorem Displays.shows
    (hDisplays : Displays L mask console screen)
    {col row : Nat}
    (hCol : col < L.cols)
    (hRow : row < L.rows) :
    Shows L mask (console.withCursor col row)
      (screen.withCursor col row) where
  displays := hDisplays.withCursor col row col row
  cursorCol := rfl
  cursorRow := rfl
  colInside := hCol
  rowInside := hRow

theorem Displays.newline
    (hDisplays : Displays L mask console screen)
    (hCursor : console.cursorRow = screen.cursorRow)
    (hRow : screen.cursorRow < L.rows) :
    Shows L mask (Framebuffer.newline font console)
      (screen.newline L.rows) := by
  have hSmall := L.rowsSmall
  have hNext :
      wrap 64 (console.cursorRow + 1) =
        screen.cursorRow + 1 := by
    rw [hCursor]
    exact wrap_of_lt (by omega)
  unfold Framebuffer.newline Screen.newline
  dsimp only
  rw [hNext]
  have hMoved :=
    hDisplays.withCursor 0 (screen.cursorRow + 1)
      screen.cursorCol screen.cursorRow
  have hOn := hMoved.on.rows
  by_cases hLast : screen.cursorRow + 1 < L.rows
  · rw [if_neg (by
      change ¬ screen.cursorRow + 1 ≥
        (console.withCursor 0 (screen.cursorRow + 1)).rows
      omega), if_pos hLast]
    exact hDisplays.shows L.colsPos hLast
  · rw [if_pos (by
      change screen.cursorRow + 1 ≥
        (console.withCursor 0 (screen.cursorRow + 1)).rows
      omega), if_neg hLast]
    have hScrolled := hMoved.scroll
    have hRows := hScrolled.on.rows
    have hCol :
        (Framebuffer.scroll font
          (console.withCursor 0
            (screen.cursorRow + 1))).cursorCol = 0 :=
      (sameCursor_scroll font _).cursorCol
    rw [hCol, hRows]
    have hRowsPos := L.rowsPos
    exact hScrolled.shows L.colsPos (by omega)

/- A character that is not a tab. -/
theorem Shows.putcharPlain
    (hShows : Shows L mask console screen)
    (ch : UInt8) :
    Shows L mask (putcharPlain font ch console)
      (screen.put L.cols L.rows ch) := by
  rcases hShows with
    ⟨hDisplays, hCol, hRow, hColIn, hRowIn⟩
  have hSmall := L.colsSmall
  unfold Framebuffer.putcharPlain Screen.put
  rw [if_neg (by simp [hDisplays.ready])]
  split
  · exact hDisplays.newline hRow hRowIn
  split
  · rw [hRow]
    exact hDisplays.shows L.colsPos hRowIn
  split
  · rw [hCol]
    split
    · have hMoved :=
        hDisplays.withCursor (screen.cursorCol - 1)
          console.cursorRow (screen.cursorCol - 1)
          screen.cursorRow
      have hLess : screen.cursorCol - 1 < L.cols := by omega
      rw [hRow] at hMoved ⊢
      have hCursor :=
        sameCursor_setCell
          (console.withCursor (screen.cursorCol - 1)
            screen.cursorRow)
          (screen.cursorCol - 1) screen.cursorRow 32
      exact
        { displays := hMoved.clearCell hLess hRowIn
          cursorCol := hCursor.cursorCol
          cursorRow := hCursor.cursorRow
          colInside := hLess
          rowInside := hRowIn }
    · exact ⟨hDisplays, hCol, hRow, hColIn, hRowIn⟩
  split
  · exact ⟨hDisplays, hCol, hRow, hColIn, hRowIn⟩
  have hCols := hDisplays.on.cols
  have hInside : ¬ console.cursorCol ≥ console.cols := by
    omega
  simp only [if_neg hInside]
  rw [hCol, hRow]
  have hDrawn := hDisplays.drawCharAt hColIn hRowIn ch
  have hCursor :=
    sameCursor_drawCharAt font console screen.cursorCol
      screen.cursorRow ch
  have hDrawnCols := hDrawn.on.cols
  generalize
    drawCharAt font console screen.cursorCol
      screen.cursorRow ch = drawn at *
  have hNext :
      wrap 64 (drawn.cursorCol + 1) =
        screen.cursorCol + 1 := by
    rw [hCursor.cursorCol, hCol]
    exact wrap_of_lt (by omega)
  rw [hNext, hCursor.cursorRow, hRow]
  by_cases hLast : screen.cursorCol + 1 < L.cols
  · rw [if_neg (by
      change ¬ screen.cursorCol + 1 ≥ drawn.cols
      omega), if_pos hLast]
    exact hDrawn.shows hLast hRowIn
  · rw [if_pos (by
      change screen.cursorCol + 1 ≥ drawn.cols
      omega), if_neg hLast]
    have hMoved :=
      hDrawn.withCursor (screen.cursorCol + 1)
        screen.cursorRow screen.cursorCol screen.cursorRow
    exact hMoved.newline rfl hRowIn

/- No character begins or ends a batch. -/
theorem scroll_batchActive
    (font : Font)
    (console : Console) :
    (Framebuffer.scroll font console).batchActive =
      console.batchActive := by
  unfold Framebuffer.scroll redrawFromBacking clearBackingRow
  dsimp only
  split_ifs <;> rfl

theorem newline_batchActive
    (font : Font)
    (console : Console) :
    (Framebuffer.newline font console).batchActive =
      console.batchActive := by
  unfold Framebuffer.newline
  dsimp only
  split_ifs
  · exact scroll_batchActive font _
  · rfl

theorem drawCharAt_batchActive
    (font : Font)
    (console : Console)
    (col row : Nat)
    (ch : UInt8) :
    (Framebuffer.drawCharAt font console col row
        ch).batchActive =
      console.batchActive := by
  unfold Framebuffer.drawCharAt
  dsimp only
  split_ifs <;> rfl

theorem putcharPlain_batchActive
    (font : Font)
    (ch : UInt8)
    (console : Console) :
    (Framebuffer.putcharPlain font ch console).batchActive =
      console.batchActive := by
  have hStart :
      (if console.cursorCol ≥ console.cols then
          Framebuffer.newline font console
        else
          console).batchActive =
        console.batchActive := by
    split_ifs
    · exact newline_batchActive font console
    · rfl
  unfold Framebuffer.putcharPlain
  dsimp only
  generalize
    (if console.cursorCol ≥ console.cols then
        Framebuffer.newline font console
      else
        console) = start at hStart ⊢
  split_ifs
  · rfl
  · exact newline_batchActive font console
  · rfl
  · unfold clearCellAt clearRect setCell
    dsimp only
    split_ifs <;> rfl
  · rfl
  · rfl
  · rw [newline_batchActive]
    exact (drawCharAt_batchActive font _ _ _ ch).trans hStart
  · exact (drawCharAt_batchActive font _ _ _ ch).trans hStart

theorem Shows.putcharInner
    (hShows : Shows L mask console screen)
    (fuel : Nat)
    {ch : UInt8}
    (hPlain : ch ≠ 9) :
    ∃ final,
      putcharInner font fuel ch console = some final ∧
        Shows L mask final (screen.put L.cols L.rows ch) := by
  refine ⟨_, ?_, hShows.putcharPlain ch⟩
  unfold Framebuffer.putcharInner
  rw [if_neg fun hTab => hPlain hTab.2]

/- Outside a batch the pixels are up to date. -/
structure Settled
    (L : Layout font)
    (mask : UInt8 → UInt8 → UInt8 → Nat)
    (console : Console)
    (screen : Screen) : Prop where
  shows : Shows L mask console screen
  batch : console.batchActive = false
  now : console.redrawDeferred = false

theorem Settled.setColours
    (hSettled : Settled L mask console screen)
    {fg bg shownFg shownBg : Nat}
    (hFg : fg = shownFg)
    (hBg : bg = shownBg)
    (hFgLess : shownFg < 2 ^ 32)
    (hBgLess : shownBg < 2 ^ 32) :
    Settled L mask { console with fg := fg, bg := bg }
      { screen with fg := shownFg, bg := shownBg } where
  shows :=
    { displays :=
        hSettled.shows.displays.setColours hFg hBg hFgLess
          hBgLess
      cursorCol := hSettled.shows.cursorCol
      cursorRow := hSettled.shows.cursorRow
      colInside := hSettled.shows.colInside
      rowInside := hSettled.shows.rowInside }
  batch := hSettled.batch
  now := hSettled.now

theorem Shows.flush
    (hShows : Shows L mask console screen)
    (hBatch : console.batchActive = false) :
    Settled L mask (flushDeferredRedraw font console)
      screen where
  shows :=
    have hSame := sameCursor_flushDeferredRedraw font console
    { displays := hShows.displays.flush.1
      cursorCol := hSame.cursorCol.trans hShows.cursorCol
      cursorRow := hSame.cursorRow.trans hShows.cursorRow
      colInside := hShows.colInside
      rowInside := hShows.rowInside }
  batch := by
    unfold flushDeferredRedraw redrawFromBacking
    split_ifs <;> exact hBatch
  now := hShows.displays.flush.2

/- Characters in a batch. -/
theorem Shows.putchars
    (hShows : Shows L mask console screen)
    (fuel : Nat)
    {s : List UInt8}
    (hPlain : ∀ ch ∈ s, ch ≠ 9) :
    ∃ final,
      s.foldlM
          (fun console ch =>
            Framebuffer.putcharInner font fuel ch console)
          console =
        some final ∧
        Shows L mask final
          (s.foldl
            (fun screen ch => screen.put L.cols L.rows ch)
            screen) := by
  induction s generalizing console screen with
  | nil => exact ⟨console, rfl, hShows⟩
  | cons ch rest ih =>
      rcases hShows.putcharInner fuel
          (hPlain ch List.mem_cons_self) with
        ⟨middle, hPut, hMiddle⟩
      rw [List.foldlM_cons, hPut]
      exact ih hMiddle fun other hMem =>
        hPlain other (List.mem_cons_of_mem _ hMem)

/- Clearing rows of the backing store. -/
theorem clearBackingRows_eq
    (hBacking : console.backingReady = true)
    (count : Nat) :
    (List.range count).foldl clearBackingRow console =
      { console with
        cells := fun i j =>
          if i < count ∧ j < console.cols then
            console.cell 32
          else
            console.cells i j } := by
  induction count with
  | zero => simp
  | succ count ih =>
      rw [List.range_succ, List.foldl_append, ih]
      simp only [List.foldl_cons, List.foldl_nil]
      unfold clearBackingRow
      rw [if_neg (by simp [hBacking])]
      congr 1
      funext i j
      by_cases hSame : i = count ∧ j < console.cols
      · rw [if_pos hSame, if_pos ⟨by omega, hSame.2⟩]
        rfl
      · have hRange :
            (i < count + 1 ∧ j < console.cols) ↔
              (i < count ∧ j < console.cols) := by
          omega
        rw [if_neg hSame]
        simp only [hRange]

theorem clearBacking_eq
    (console : Console) :
    clearBacking console =
      { console with
        cells := fun i j =>
          if console.backingReady = true ∧ i < console.rows ∧
              j < console.cols then
            console.cell 32
          else
            console.cells i j } := by
  unfold clearBacking
  by_cases hBacking : console.backingReady = true
  · rw [if_neg (by simp [hBacking]),
      clearBackingRows_eq hBacking]
    simp only [hBacking, true_and]
  · have hCells :
        (fun i j =>
          if console.backingReady = true ∧ i < console.rows ∧
              j < console.cols then
            console.cell 32
          else
            console.cells i j) = console.cells :=
      funext fun _ => funext fun _ =>
        if_neg fun hIn => hBacking hIn.1
    rw [if_pos (by simpa using hBacking), hCells]

/- A console that was cleared shows blank cells. -/
theorem settled_clear
    (hOn : console.On L)
    (hReady : console.ready = true)
    (hMask :
      ∀ red green blue,
        makeColor console red green blue =
          mask red green blue)
    (hFg : console.fg = screen.fg)
    (hBg : console.bg = screen.bg)
    (hFgLess : screen.fg < 2 ^ 32)
    (hBgLess : screen.bg < 2 ^ 32)
    (hBatch : console.batchActive = false) :
    Settled L mask (framebufferConsoleClear console)
      screen.clear := by
  have hBlank : console.cell 32 = screen.cell 32 := by
    unfold Console.cell Screen.cell
    rw [hFg, hBg]
  have hClear :=
    paints_clearRectColor hOn
      (Nat.le_of_eq (Nat.zero_add L.raster.width))
      (Nat.le_of_eq (Nat.zero_add L.raster.height)) hBgLess
  have hPixels :
      ∀ x y, x / font.cellWidth < L.cols →
        y / font.cellHeight < L.rows →
          L.raster.pixel
              (clearRectColor console 0 0 L.raster.width
                L.raster.height screen.bg console.memory)
              x y =
            screen.clear.pixel font x y := by
    intro x y hX hY
    have hHigh :=
      (Nat.div_lt_iff_lt_mul (cellHeight_pos font)).mp hY
    have hLess := Nat.lt_of_lt_of_le hHigh L.high
    have hSpace : (screen.cell 32).ch = 32 := rfl
    rw [hClear.inside _ x y (L.in_width hX)
      ⟨⟨Nat.zero_le x, by
          have hIn := L.in_width hX
          omega⟩,
        Nat.zero_le y, by omega⟩]
    exact (cellPixel_space hSpace _ _).symm
  have hFrame :
      framebufferConsoleClear console =
        { console with
          memory :=
            clearRectColor console 0 0 L.raster.width
              L.raster.height screen.bg console.memory
          cells := fun i j =>
            if console.backingReady = true ∧ i < L.rows ∧
                j < L.cols then
              screen.cell 32
            else
              console.cells i j
          redrawDeferred := false
          cursorCol := 0
          cursorRow := 0 } := by
    unfold framebufferConsoleClear
    rw [if_neg (by simp [hReady]), clearBacking_eq]
    unfold clearRect Console.cell Screen.cell
    dsimp only
    rw [hOn.width, hOn.height, hOn.rows, hOn.cols, hFg, hBg]
  rw [hFrame]
  exact
    { shows :=
        { displays :=
            { on :=
                { base := hOn.base
                  pitch := hOn.pitch
                  width := hOn.width
                  height := hOn.height
                  cols := hOn.cols
                  rows := hOn.rows }
              ready := hReady
              mask := hMask
              fg := hFg
              bg := hBg
              sound :=
                ⟨hFgLess, hBgLess,
                  fun _ _ => ⟨hFgLess, hBgLess⟩⟩
              cells := by
                intro hBacking row col hRow hCol
                exact if_pos ⟨hBacking, hRow, hCol⟩
              deferred := fun hFalse => by cases hFalse
              pixels := fun _ => hPixels }
          cursorCol := rfl
          cursorRow := rfl
          colInside := L.colsPos
          rowInside := L.rowsPos }
      batch := hBatch
      now := rfl }

/- The same call with each of its characters on its own. -/
def Op.singles : Op → List Op
| .write s => s.map .putchar
| op => [op]

/- A call without tabs. -/
def Op.Plain
    (op : Op) : Prop :=
  ∀ ch ∈ op.bytes, ch ≠ 9

/- Every call refines its step on the screen. -/
theorem Settled.run
    (hSettled : Settled L mask console screen)
    (fuel : Nat)
    {op : Op}
    (hPlain : op.Plain) :
    ∃ final,
      op.run font fuel console = some final ∧
        Settled L mask final
          (screen.step L.cols L.rows mask op) := by
  have hShows := hSettled.shows
  have hDisplays := hShows.displays
  cases op with
  | putchar ch =>
      have hChar : ch ≠ 9 := hPlain ch List.mem_cons_self
      have hPut :
          Framebuffer.putcharInner font fuel ch console =
            some (Framebuffer.putcharPlain font ch console) :=
        if_neg fun hTab => hChar hTab.2
      refine
        ⟨flushDeferredRedraw font
          (Framebuffer.putcharPlain font ch console), ?_, ?_⟩
      · rw [Op.run, framebufferConsolePutchar, hPut]
        rfl
      · apply (hShows.putcharPlain ch).flush
        rw [putcharPlain_batchActive]
        exact hSettled.batch
  | write s =>
      have hBatched :
          Shows L mask { console with batchActive := true }
            screen :=
        ⟨hDisplays.withBatch true, hShows.cursorCol,
          hShows.cursorRow, hShows.colInside,
          hShows.rowInside⟩
      rcases hBatched.putchars fuel hPlain with
        ⟨written, hPut, hWritten⟩
      have hRestored :
          Shows L mask { written with batchActive := false }
            (screen.step L.cols L.rows mask (.write s)) :=
        ⟨hWritten.displays.withBatch false,
          hWritten.cursorCol, hWritten.cursorRow,
          hWritten.colInside, hWritten.rowInside⟩
      refine ⟨_, ?_, hRestored.flush rfl⟩
      rw [Op.run, framebufferConsoleWrite,
        if_neg (by simp [hDisplays.ready])]
      refine Option.bind_eq_some_iff.mpr ⟨written, hPut, ?_⟩
      simp only [hSettled.batch, Bool.not_false, if_true]
  | setColor red green blue =>
      refine ⟨_, rfl, ?_⟩
      have hColour := makeColor_lt console red green blue
      unfold framebufferConsoleSetColor
      rw [if_neg (by simp [hDisplays.ready])]
      rw [hDisplays.mask] at hColour
      exact hSettled.setColours
        (hDisplays.mask red green blue) hDisplays.bg hColour
        hDisplays.sound.bg
  | setBackground red green blue =>
      refine ⟨_, rfl, ?_⟩
      have hColour := makeColor_lt console red green blue
      unfold framebufferConsoleSetBackground
      rw [if_neg (by simp [hDisplays.ready])]
      rw [hDisplays.mask] at hColour
      exact hSettled.setColours hDisplays.fg
        (hDisplays.mask red green blue) hDisplays.sound.fg
        hColour
  | clear =>
      exact ⟨_, rfl,
        settled_clear hDisplays.on hDisplays.ready
          hDisplays.mask hDisplays.fg hDisplays.bg
          hDisplays.sound.fg hDisplays.sound.bg
          hSettled.batch⟩

/- A run of calls. -/
def Screen.steps
    (cols rows : Nat)
    (mask : UInt8 → UInt8 → UInt8 → Nat)
    (screen : Screen)
    (ops : List Op) : Screen :=
  ops.foldl (fun screen op => screen.step cols rows mask op)
    screen

/- The screen does not see how characters are batched. -/
theorem Screen.steps_singles
    (cols rows : Nat)
    (mask : UInt8 → UInt8 → UInt8 → Nat)
    (screen : Screen)
    (ops : List Op) :
    screen.steps cols rows mask (ops.flatMap Op.singles) =
      screen.steps cols rows mask ops := by
  induction ops generalizing screen with
  | nil => rfl
  | cons op ops ih =>
      have hOp :
          screen.steps cols rows mask op.singles =
            screen.step cols rows mask op := by
        cases op with
        | write s => exact List.foldl_map
        | putchar ch => rfl
        | setColor red green blue => rfl
        | setBackground red green blue => rfl
        | clear => rfl
      rw [List.flatMap_cons, Screen.steps, List.foldl_append]
      exact
        (ih _).trans
          (congrArg
            (fun screen =>
              Screen.steps cols rows mask screen ops)
            hOp)

theorem Settled.runOps
    (hSettled : Settled L mask console screen)
    (fuel : Nat)
    {ops : List Op}
    (hPlain : ∀ op ∈ ops, op.Plain) :
    ∃ final,
      runOps font fuel ops console = some final ∧
        Settled L mask final
          (screen.steps L.cols L.rows mask ops) := by
  induction ops generalizing console screen with
  | nil => exact ⟨console, rfl, hSettled⟩
  | cons op ops ih =>
      rcases hSettled.run fuel
          (hPlain op List.mem_cons_self) with
        ⟨middle, hRun, hMiddle⟩
      rcases ih hMiddle fun other hMem =>
          hPlain other (List.mem_cons_of_mem _ hMem) with
        ⟨final, hRest, hFinal⟩
      refine ⟨final, ?_, hFinal⟩
      unfold Framebuffer.runOps
      rw [List.foldlM_cons, hRun]
      exact hRest

theorem Op.plain_singles
    {ops : List Op}
    (hPlain : ∀ op ∈ ops, op.Plain) :
    ∀ op ∈ ops.flatMap Op.singles, op.Plain := by
  intro single hMem
  rcases List.mem_flatMap.mp hMem with ⟨op, hOp, hSingle⟩
  have hBytes := hPlain op hOp
  cases op with
  | write s =>
      rcases List.mem_map.mp hSingle with ⟨ch, hCh, rfl⟩
      intro other hOther
      rw [List.mem_singleton.mp hOther]
      exact hBytes ch hCh
  | putchar ch =>
      rw [List.mem_singleton.mp hSingle]
      exact hBytes
  | setColor red green blue =>
      rw [List.mem_singleton.mp hSingle]
      exact hBytes
  | setBackground red green blue =>
      rw [List.mem_singleton.mp hSingle]
      exact hBytes
  | clear =>
      rw [List.mem_singleton.mp hSingle]
      exact hBytes

end

end Framebuffer

end Whirliscope

------------------------------------------------------------
-- Agreement of the Three Displays
------------------------------------------------------------

namespace Whirliscope

namespace Framebuffer

open ByteMemory

/- The pixels of the grid, the cursor and the colours. -/
structure SameDisplay
    (font : Font)
    (console other : Console) : Prop where
  cols : other.cols = console.cols
  rows : other.rows = console.rows
  pixels :
    ∀ x y, x < console.cols * font.cellWidth →
      y < console.rows * font.cellHeight →
        getLE other.memory (pixelAddress other x y) 4 =
          getLE console.memory (pixelAddress console x y) 4
  cursorCol : other.cursorCol = console.cursorCol
  cursorRow : other.cursorRow = console.cursorRow
  fg : other.fg = console.fg
  bg : other.bg = console.bg

section

variable {font : Font} {L : Layout font}
variable {mask : UInt8 → UInt8 → UInt8 → Nat}
variable {console other : Console} {screen : Screen}

/- The pixels of a settled console are the screen's. -/
theorem Settled.pixel
    (hSettled : Settled L mask console screen)
    {x y : Nat}
    (hX : x < L.cols * font.cellWidth)
    (hY : y < L.rows * font.cellHeight) :
    getLE console.memory (pixelAddress console x y) 4 =
      screen.pixel font x y := by
  have hDisplays := hSettled.shows.displays
  have hCol :=
    (Nat.div_lt_iff_lt_mul (cellWidth_pos font)).mpr hX
  have hRow :=
    (Nat.div_lt_iff_lt_mul (cellHeight_pos font)).mpr hY
  rw [hDisplays.on.pixelAddress_eq
    (Nat.lt_of_lt_of_le hX L.wide)
    (Nat.lt_of_lt_of_le hY L.high)]
  exact hDisplays.pixels hSettled.now x y hCol hRow

theorem Settled.sameDisplay
    (hSettled : Settled L mask console screen)
    (hOther : Settled L mask other screen) :
    SameDisplay font console other where
  cols :=
    hOther.shows.displays.on.cols.trans
      hSettled.shows.displays.on.cols.symm
  rows :=
    hOther.shows.displays.on.rows.trans
      hSettled.shows.displays.on.rows.symm
  pixels := by
    intro x y hX hY
    rw [hSettled.shows.displays.on.cols] at hX
    rw [hSettled.shows.displays.on.rows] at hY
    exact (hOther.pixel hX hY).trans
      (hSettled.pixel hX hY).symm
  cursorCol :=
    hOther.shows.cursorCol.trans hSettled.shows.cursorCol.symm
  cursorRow :=
    hOther.shows.cursorRow.trans hSettled.shows.cursorRow.symm
  fg :=
    hOther.shows.displays.fg.trans
      hSettled.shows.displays.fg.symm
  bg :=
    hOther.shows.displays.bg.trans
      hSettled.shows.displays.bg.symm

/- A settled console can do without its backing store. -/
theorem Settled.withoutBacking
    (hSettled : Settled L mask console screen) :
    Settled L mask { console with backingReady := false }
      screen where
  shows :=
    have hDisplays := hSettled.shows.displays
    { displays :=
        { on :=
            { base := hDisplays.on.base
              pitch := hDisplays.on.pitch
              width := hDisplays.on.width
              height := hDisplays.on.height
              cols := hDisplays.on.cols
              rows := hDisplays.on.rows }
          ready := hDisplays.ready
          mask := hDisplays.mask
          fg := hDisplays.fg
          bg := hDisplays.bg
          sound := hDisplays.sound
          cells := fun hFalse => by cases hFalse
          deferred := by
            intro hPending
            rw [hSettled.now] at hPending
            cases hPending
          pixels := hDisplays.pixels }
      cursorCol := hSettled.shows.cursorCol
      cursorRow := hSettled.shows.cursorRow
      colInside := hSettled.shows.colInside
      rowInside := hSettled.shows.rowInside }
  batch := hSettled.batch
  now := hSettled.now

end

/-
  The boot loader's description of a framebuffer: rows do not
  overlap, and the last one ends in the address space.
-/
structure LimineFramebuffer.WellFormed
    (framebuffer : LimineFramebuffer) : Prop where
  pitch :
    4 * framebuffer.width.toNat ≤ framebuffer.pitch.toNat
  addressable :
    ∀ base, framebuffer.address = some base →
      base.toNat +
          framebuffer.height.toNat *
            framebuffer.pitch.toNat ≤
        2 ^ 64

/- The layout of a framebuffer that has room for a cell. -/
def LimineFramebuffer.layout
    (font : Font)
    {framebuffer : LimineFramebuffer}
    (hWellFormed : framebuffer.WellFormed)
    {base : UInt64}
    (hBase : framebuffer.address = some base)
    (hCols : framebuffer.width.toNat / font.cellWidth ≠ 0)
    (hRows : framebuffer.height.toNat / font.cellHeight ≠ 0) :
    Layout font where
  raster :=
    { base := base.toNat
      pitch := framebuffer.pitch.toNat
      width := framebuffer.width.toNat
      height := framebuffer.height.toNat
      fits := hWellFormed.pitch }
  cols := framebuffer.width.toNat / font.cellWidth
  rows := framebuffer.height.toNat / font.cellHeight
  colsPos := Nat.pos_of_ne_zero hCols
  rowsPos := Nat.pos_of_ne_zero hRows
  colsSmall := quotient_le framebuffer.width font.width
  rowsSmall := quotient_le framebuffer.height font.height
  wide := Nat.div_mul_le_self _ _
  high := Nat.div_mul_le_self _ _
  addressable := hWellFormed.addressable base hBase

/- An initialised console shows a blank screen. -/
theorem settled_of_init
    {font : Font}
    {framebuffer : LimineFramebuffer}
    {before start : Console}
    (hWellFormed : framebuffer.WellFormed)
    (hBatch : before.batchActive = false)
    (hInit :
      framebufferConsoleInit font (some framebuffer) before =
        (true, start)) :
    ∃ (L : Layout font)
        (mask : UInt8 → UInt8 → UInt8 → Nat)
        (screen : Screen),
      Settled L mask start screen := by
  unfold framebufferConsoleInit at hInit
  cases hBase : framebuffer.address with
  | none =>
      simp only [hBase] at hInit
      cases hInit
  | some base =>
      simp only [hBase] at hInit
      split_ifs at hInit with hBpp hEmpty
      · cases hInit
      · cases hInit
      · rw [not_or] at hEmpty
        cases hInit
        refine
          ⟨LimineFramebuffer.layout font hWellFormed hBase
              hEmpty.1 hEmpty.2,
            makeColor
              (assignFramebuffer font framebuffer base
                before),
            Screen.clear
              { cells := fun _ _ => { ch := 0, fg := 0, bg := 0 }
                fg := _
                bg := _
                cursorCol := 0
                cursorRow := 0 },
            settled_clear ⟨rfl, rfl, rfl, rfl, rfl, rfl⟩ rfl
              (fun _ _ _ => rfl) rfl rfl
              (makeColor_lt _ _ _ _) (makeColor_lt _ _ _ _)
              hBatch⟩

/-
  The three ways of getting characters without tabs onto a
  new screen agree: one by one, in any batches, and in any
  batches with the backing store switched off. The first two
  use the store when the screen is small enough for it.
-/
theorem displays_agree
    {font : Font}
    {framebuffer : LimineFramebuffer}
    {before start : Console}
    (hWellFormed : framebuffer.WellFormed)
    (hBatch : before.batchActive = false)
    (hInit :
      framebufferConsoleInit font (some framebuffer) before =
        (true, start))
    (fuel : Nat)
    {batched copied : List Op}
    (hBatched : ∀ op ∈ batched, op.Plain)
    (hCopied : ∀ op ∈ copied, op.Plain)
    (hSame :
      copied.flatMap Op.singles =
        batched.flatMap Op.singles) :
    ∃ one many pixels,
      runOps font fuel (batched.flatMap Op.singles) start =
          some one ∧
        runOps font fuel batched start = some many ∧
        runOps font fuel copied
            { start with backingReady := false } =
          some pixels ∧
        SameDisplay font one many ∧
        SameDisplay font one pixels := by
  rcases settled_of_init hWellFormed hBatch hInit with
    ⟨L, mask, screen, hStart⟩
  rcases hStart.runOps fuel (Op.plain_singles hBatched) with
    ⟨one, hOneRun, hOne⟩
  rcases hStart.runOps fuel hBatched with
    ⟨many, hManyRun, hMany⟩
  rcases hStart.withoutBacking.runOps fuel hCopied with
    ⟨pixels, hPixelsRun, hPixels⟩
  rw [← Screen.steps_singles] at hMany hPixels
  rw [hSame] at hPixels
  exact
    ⟨one, many, pixels, hOneRun, hManyRun, hPixelsRun,
      hOne.sameDisplay hMany, hOne.sameDisplay hPixels⟩

theorem sampleFramebuffer_wellFormed :
    sampleFramebuffer.WellFormed where
  pitch := by decide
  addressable := by
    intro base hBase
    cases hBase
    decide

/- Two characters in red, in a batch and one by one. -/
theorem sampleConsole_agrees :
    ∃ one many pixels,
      runOps sampleFont 0
            [.setColor 255 0 0, .putchar 72, .putchar 10]
            sampleConsole =
          some one ∧
        runOps sampleFont 0
            [.setColor 255 0 0, .write [72, 10]]
            sampleConsole =
          some many ∧
        runOps sampleFont 0
            [.setColor 255 0 0, .putchar 72, .write [10]]
            { sampleConsole with backingReady := false } =
          some pixels ∧
        SameDisplay sampleFont one many ∧
        SameDisplay sampleFont one pixels :=
  @displays_agree sampleFont sampleFramebuffer blankConsole
    sampleConsole sampleFramebuffer_wellFormed rfl
    sampleConsole_init 0
    [.setColor 255 0 0, .write [72, 10]]
    [.setColor 255 0 0, .putchar 72, .write [10]]
    (by simp [Op.Plain, Op.bytes])
    (by simp [Op.Plain, Op.bytes])
    rfl

end Framebuffer

end Whirliscope
