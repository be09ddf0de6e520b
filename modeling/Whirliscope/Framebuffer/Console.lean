import Whirliscope.Library.ByteMemory

/-
  The framebuffer console.

  The console draws characters of a fixed cell size into a
  32-bit linear framebuffer. The glyph table is generated at
  build time and is a parameter here. `none` is the outcome
  of a call whose tab loop is still running after `fuel`
  passes.

  Key definitions include:
    * `Font`, `Console`
    * `clearRectColor`, `drawCellAt`, `scroll`
    * `putcharInner`, `framebufferConsolePutchar`
    * `framebufferConsoleWrite`
    * `Op.run`, `runOps`
-/

------------------------------------------------------------
-- The Console State
------------------------------------------------------------

namespace Whirliscope

namespace Framebuffer

open ByteMemory

/- The generated glyph table `ws_font` and its dimensions. -/
structure Font where
  width : Nat
  height : Nat
  first : Nat
  last : Nat
  rows : Nat → Nat → UInt8

def fontScale : Nat := 2
def tabWidth : Nat := 4
def maxConsoleCols : Nat := 160
def maxConsoleRows : Nat := 100

def Font.cellWidth
    (font : Font) : Nat :=
  (font.width + 1) * fontScale

def Font.cellHeight
    (font : Font) : Nat :=
  (font.height + 1) * fontScale

/- `struct framebuffer_cell`. -/
structure FramebufferCell where
  ch : UInt8
  fg : Nat
  bg : Nat

/- The fields of `struct limine_framebuffer` that are read. -/
structure LimineFramebuffer where
  address : Option UInt64
  width : UInt64
  height : UInt64
  pitch : UInt64
  bpp : UInt16
  redMaskSize : UInt8
  redMaskShift : UInt8
  greenMaskSize : UInt8
  greenMaskShift : UInt8
  blueMaskSize : UInt8
  blueMaskShift : UInt8

/-
  `struct framebuffer_console` with the cell backing store
  and the memory that holds the pixels.
-/
structure Console where
  base : Nat
  width : Nat
  height : Nat
  pitch : Nat
  redMaskSize : Nat
  redMaskShift : Nat
  greenMaskSize : Nat
  greenMaskShift : Nat
  blueMaskSize : Nat
  blueMaskShift : Nat
  fg : Nat
  bg : Nat
  cols : Nat
  rows : Nat
  cursorCol : Nat
  cursorRow : Nat
  backingReady : Bool
  batchActive : Bool
  redrawDeferred : Bool
  ready : Bool
  cells : Nat → Nat → FramebufferCell
  memory : Bytes

/- `color_component`. -/
def colorComponent
    (value maskSize maskShift : Nat) : Nat :=
  if maskSize = 0 then
    0
  else
    let component :=
      if maskSize ≥ 8 then
        wrap 32 (value <<< (maskSize - 8))
      else
        value >>> (8 - maskSize)
    wrap 32 (component <<< maskShift)

/- `make_color`. -/
def makeColor
    (console : Console)
    (red green blue : UInt8) : Nat :=
  colorComponent red.toNat console.redMaskSize
      console.redMaskShift |||
    colorComponent green.toNat console.greenMaskSize
      console.greenMaskShift |||
    colorComponent blue.toNat console.blueMaskSize
      console.blueMaskShift

end Framebuffer

end Whirliscope

------------------------------------------------------------
-- Drawing Into the Framebuffer
------------------------------------------------------------

namespace Whirliscope

namespace Framebuffer

open ByteMemory

/- The address of a pixel. -/
def pixelAddress
    (console : Console)
    (x y : Nat) : Nat :=
  wrap 64 (console.base + y * console.pitch + x * 4)

/- Store `count` copies of a value of `width` bytes. -/
def storeRun
    (width value : Nat) :
    Nat → Nat → Bytes → Bytes
| 0, _, memory => memory
| count + 1, address, memory =>
    storeRun width value count (wrap 64 (address + width))
      (putLE memory address width value)

/-
  Fill `width` pixels from an address on: in pairs when the
  address is aligned to 8 bytes, and one by one otherwise.
-/
def fillPixels
    (address width color : Nat)
    (memory : Bytes) : Bytes :=
  if address % 8 = 0 then
    let pairs := width / 2
    storeRun 4 color (width - 2 * pairs)
      (wrap 64 (address + 8 * pairs))
      (storeRun 8 (color ||| color <<< 32) pairs address
        memory)
  else
    storeRun 4 color width address memory

/- `fill_span`. -/
def fillSpan
    (console : Console)
    (x y width color : Nat)
    (memory : Bytes) : Bytes :=
  fillPixels (pixelAddress console x y) width color memory

/- `clear_rect_color`. -/
def clearRectColor
    (console : Console)
    (x y width height color : Nat)
    (memory : Bytes) : Bytes :=
  (List.range height).foldl
    (fun memory row =>
      fillSpan console x (y + row) width color memory)
    memory

/- `clear_rect`. -/
def clearRect
    (console : Console)
    (x y width height : Nat) : Console :=
  { console with
    memory :=
      clearRectColor console x y width height console.bg
        console.memory }

/- Copy `count` values of `width` bytes forward. -/
def copyRun
    (width : Nat) :
    Nat → Nat → Nat → Bytes → Bytes
| 0, _, _, memory => memory
| count + 1, dest, src, memory =>
    copyRun width count (wrap 64 (dest + width))
      (wrap 64 (src + width))
      (putLE memory dest width (getLE memory src width))

/- `copy_row_forward`. -/
def copyRowForward
    (dest src bytes : Nat)
    (memory : Bytes) : Bytes :=
  if (dest ||| src) % 8 = 0 then
    let words := bytes / 8
    copyRun 1 (bytes - 8 * words)
      (wrap 64 (dest + 8 * words))
      (wrap 64 (src + 8 * words))
      (copyRun 8 words dest src memory)
  else
    copyRun 1 bytes dest src memory

/- `glyph_is_empty`. -/
def glyphIsEmpty
    (font : Font)
    (glyph : Nat → UInt8) : Bool :=
  (List.range font.height).all fun i => glyph i == 0

/- `glyph_for`. -/
def glyphFor
    (font : Font)
    (ch : UInt8) : Nat → UInt8 :=
  let c := ch.toNat
  if c < font.first || c > font.last ||
      glyphIsEmpty font (font.rows (c - font.first)) then
    if c = 32 then
      font.rows (32 - font.first)
    else
      font.rows (63 - font.first)
  else
    font.rows (c - font.first)

/- Whether a pixel of a glyph row is set. -/
def glyphBit
    (font : Font)
    (rowBits : UInt8)
    (glyphX : Nat) : Bool :=
  rowBits.toNat &&& wrap 8 (1 <<< (font.width - 1 - glyphX))
    ≠ 0

/- The inner loop: the column after a run of set pixels. -/
def glyphRunEnd
    (font : Font)
    (rowBits : UInt8) :
    Nat → Nat → Nat
| 0, glyphX => glyphX
| fuel + 1, glyphX =>
    if glyphX + 1 ≥ font.width then
      glyphX + 1
    else if glyphBit font rowBits (glyphX + 1) then
      glyphRunEnd font rowBits fuel (glyphX + 1)
    else
      glyphX + 1

/- The loop over the pixels of one row of a glyph. -/
def drawGlyphRow
    (font : Font)
    (console : Console)
    (x pixelY color : Nat)
    (rowBits : UInt8) :
    Nat → Nat → Bytes → Bytes
| 0, _, memory => memory
| fuel + 1, glyphX, memory =>
    if glyphX < font.width then
      if glyphBit font rowBits glyphX then
        let runEnd :=
          glyphRunEnd font rowBits font.width glyphX
        let pixelX := x + 1 + glyphX * fontScale
        let runWidth := (runEnd - glyphX) * fontScale
        drawGlyphRow font console x pixelY color rowBits fuel
          runEnd
          ((List.range fontScale).foldl
            (fun memory dy =>
              fillSpan console pixelX (pixelY + dy) runWidth
                color memory)
            memory)
      else
        drawGlyphRow font console x pixelY color rowBits fuel
          (glyphX + 1) memory
    else
      memory

/- `draw_cell_at`. -/
def drawCellAt
    (font : Font)
    (console : Console)
    (col row : Nat)
    (cell : FramebufferCell)
    (memory : Bytes) : Bytes :=
  let x := col * font.cellWidth
  let y := row * font.cellHeight
  let cleared :=
    clearRectColor console x y font.cellWidth
      font.cellHeight cell.bg memory
  if cell.ch = 32 then
    cleared
  else
    (List.range font.height).foldl
      (fun memory glyphY =>
        drawGlyphRow font console x
          (y + 1 + glyphY * fontScale) cell.fg
          (glyphFor font cell.ch glyphY) font.width 0 memory)
      cleared

/- `clear_cell_at`. -/
def clearCellAt
    (font : Font)
    (console : Console)
    (col row : Nat) : Console :=
  clearRect console (col * font.cellWidth)
    (row * font.cellHeight) font.cellWidth font.cellHeight

end Framebuffer

end Whirliscope

------------------------------------------------------------
-- The Cell Backing Store
------------------------------------------------------------

namespace Whirliscope

namespace Framebuffer

open ByteMemory

/- A cell with the current colours. -/
def Console.cell
    (console : Console)
    (ch : UInt8) : FramebufferCell where
  ch := ch
  fg := console.fg
  bg := console.bg

/- Assign one cell of the backing store. -/
def Console.assignCell
    (console : Console)
    (col row : Nat)
    (cell : FramebufferCell) : Console :=
  { console with
    cells := fun i j =>
      if i = row ∧ j = col then cell
      else console.cells i j }

/- `set_cell`. -/
def setCell
    (console : Console)
    (col row : Nat)
    (ch : UInt8) : Console :=
  if !console.backingReady then
    console
  else
    console.assignCell col row (console.cell ch)

/- `clear_backing_row`. -/
def clearBackingRow
    (console : Console)
    (row : Nat) : Console :=
  if !console.backingReady then
    console
  else
    { console with
      cells := fun i j =>
        if i = row ∧ j < console.cols then console.cell 32
        else console.cells i j }

/- `clear_backing`. -/
def clearBacking
    (console : Console) : Console :=
  if !console.backingReady then
    console
  else
    (List.range console.rows).foldl clearBackingRow console

/- `redraw_from_backing`. -/
def redrawFromBacking
    (font : Font)
    (console : Console) : Console :=
  if !console.backingReady then
    console
  else
    { console with
      memory :=
        (List.range console.rows).foldl
          (fun memory row =>
            (List.range console.cols).foldl
              (fun memory col =>
                drawCellAt font console col row
                  (console.cells row col) memory)
              memory)
          console.memory }

/- `draw_char_at`. -/
def drawCharAt
    (font : Font)
    (console : Console)
    (col row : Nat)
    (ch : UInt8) : Console :=
  let cell := console.cell ch
  let stored :=
    if console.backingReady then
      console.assignCell col row cell
    else
      console
  if console.redrawDeferred then
    stored
  else
    { stored with
      memory :=
        drawCellAt font stored col row cell stored.memory }

/- Move the rows of the backing store up by one. -/
def moveCellsUp
    (console : Console) : Console :=
  { console with
    cells := fun i j =>
      if i + 1 < console.rows ∧ j < console.cols then
        console.cells (i + 1) j
      else
        console.cells i j }

/- Move the pixel rows of the screen up by one cell. -/
def copyScreenUp
    (font : Font)
    (console : Console) : Console :=
  let copyWidth := console.cols * font.cellWidth * 4
  let copyHeight := (console.rows - 1) * font.cellHeight
  { console with
    memory :=
      (List.range copyHeight).foldl
        (fun memory y =>
          copyRowForward (pixelAddress console 0 y)
            (pixelAddress console 0 (y + font.cellHeight))
            copyWidth memory)
        console.memory }

/- `scroll`. -/
def scroll
    (font : Font)
    (console : Console) : Console :=
  if console.backingReady then
    let moved :=
      clearBackingRow (moveCellsUp console)
        (console.rows - 1)
    if console.batchActive then
      { moved with redrawDeferred := true }
    else
      redrawFromBacking font moved
  else
    clearRect (copyScreenUp font console) 0
      ((console.rows - 1) * font.cellHeight)
      (console.cols * font.cellWidth) font.cellHeight

/- `flush_deferred_redraw`. -/
def flushDeferredRedraw
    (font : Font)
    (console : Console) : Console :=
  if !console.redrawDeferred then
    console
  else
    { redrawFromBacking font console with
      redrawDeferred := false }

/- Put the cursor somewhere. -/
def Console.withCursor
    (console : Console)
    (col row : Nat) : Console :=
  { console with cursorCol := col, cursorRow := row }

/- `newline`. -/
def newline
    (font : Font)
    (console : Console) : Console :=
  let moved :=
    console.withCursor 0 (wrap 64 (console.cursorRow + 1))
  if moved.cursorRow ≥ moved.rows then
    let scrolled := scroll font moved
    scrolled.withCursor scrolled.cursorCol
      (scrolled.rows - 1)
  else
    moved

end Framebuffer

end Whirliscope

------------------------------------------------------------
-- Console Calls
------------------------------------------------------------

namespace Whirliscope

namespace Framebuffer

open ByteMemory

/- `framebuffer_console_clear`. -/
def framebufferConsoleClear
    (console : Console) : Console :=
  if !console.ready then
    console
  else
    { clearBacking
        (clearRect console 0 0 console.width
          console.height) with
      redrawDeferred := false
      cursorCol := 0
      cursorRow := 0 }

/- The assignments of `framebuffer_console_init`. -/
def assignFramebuffer
    (font : Font)
    (framebuffer : LimineFramebuffer)
    (base : UInt64)
    (console : Console) : Console :=
  let cols := framebuffer.width.toNat / font.cellWidth
  let rows := framebuffer.height.toNat / font.cellHeight
  { console with
    base := base.toNat
    width := framebuffer.width.toNat
    height := framebuffer.height.toNat
    pitch := framebuffer.pitch.toNat
    redMaskSize := framebuffer.redMaskSize.toNat
    redMaskShift := framebuffer.redMaskShift.toNat
    greenMaskSize := framebuffer.greenMaskSize.toNat
    greenMaskShift := framebuffer.greenMaskShift.toNat
    blueMaskSize := framebuffer.blueMaskSize.toNat
    blueMaskShift := framebuffer.blueMaskShift.toNat
    cols := cols
    rows := rows
    cursorCol := 0
    cursorRow := 0
    backingReady :=
      decide (cols ≤ maxConsoleCols) &&
        decide (rows ≤ maxConsoleRows) }

/- `framebuffer_console_init`. -/
def framebufferConsoleInit
    (font : Font)
    (framebuffer : Option LimineFramebuffer)
    (console : Console) : Bool × Console :=
  match framebuffer with
  | none => (false, { console with ready := false })
  | some framebuffer =>
      match framebuffer.address with
      | none => (false, { console with ready := false })
      | some base =>
          if framebuffer.bpp ≠ 32 then
            (false, { console with ready := false })
          else
            let assigned :=
              assignFramebuffer font framebuffer base console
            if assigned.cols = 0 ∨ assigned.rows = 0 then
              (false, { assigned with ready := false })
            else
              (true,
                framebufferConsoleClear
                  { assigned with
                    fg := makeColor assigned 0xff 0xff 0xff
                    bg := makeColor assigned 0 0 0
                    ready := true })

/- `framebuffer_console_set_color`. -/
def framebufferConsoleSetColor
    (red green blue : UInt8)
    (console : Console) : Console :=
  if !console.ready then
    console
  else
    { console with fg := makeColor console red green blue }

/- `framebuffer_console_set_background`. -/
def framebufferConsoleSetBackground
    (red green blue : UInt8)
    (console : Console) : Console :=
  if !console.ready then
    console
  else
    { console with bg := makeColor console red green blue }

/- Every case of `putchar_inner` but the tab. -/
def putcharPlain
    (font : Font)
    (ch : UInt8)
    (console : Console) : Console :=
  if !console.ready then
    console
  else if ch = 10 then
    newline font console
  else if ch = 13 then
    console.withCursor 0 console.cursorRow
  else if ch = 8 then
    if console.cursorCol > 0 then
      let moved :=
        console.withCursor (console.cursorCol - 1)
          console.cursorRow
      clearCellAt font
        (setCell moved moved.cursorCol moved.cursorRow 32)
        moved.cursorCol moved.cursorRow
    else
      console
  else if ch < 32 then
    console
  else
    let start :=
      if console.cursorCol ≥ console.cols then
        newline font console
      else
        console
    let drawn :=
      drawCharAt font start start.cursorCol start.cursorRow
        ch
    let moved :=
      drawn.withCursor (wrap 64 (drawn.cursorCol + 1))
        drawn.cursorRow
    if moved.cursorCol ≥ moved.cols then
      newline font moved
    else
      moved

/-
  The tab loop. Each pass puts a space, which is never a tab,
  through `framebuffer_console_putchar`.
-/
def tabLoop
    (font : Font)
    (nextTab : Nat) :
    Nat → Console → Option Console
| 0, _ => none
| fuel + 1, console =>
    if console.cursorCol < nextTab then
      tabLoop font nextTab fuel
        (flushDeferredRedraw font
          (putcharPlain font 32 console))
    else
      some console

/- `(cursor_col + TAB_WIDTH) & ~(TAB_WIDTH - 1)`. -/
def nextTabStop
    (cursorCol : Nat) : Nat :=
  alignDown 64 (wrap 64 (cursorCol + tabWidth)) tabWidth

/- `putchar_inner`. -/
def putcharInner
    (font : Font)
    (fuel : Nat)
    (ch : UInt8)
    (console : Console) : Option Console :=
  if console.ready ∧ ch = 9 then
    tabLoop font (nextTabStop console.cursorCol) fuel console
  else
    some (putcharPlain font ch console)

/- `framebuffer_console_putchar`. -/
def framebufferConsolePutchar
    (font : Font)
    (fuel : Nat)
    (ch : UInt8)
    (console : Console) : Option Console :=
  (putcharInner font fuel ch console).map
    (flushDeferredRedraw font)

/- `framebuffer_console_write`. -/
def framebufferConsoleWrite
    (font : Font)
    (fuel : Nat)
    (s : List UInt8)
    (console : Console) : Option Console := do
  if !console.ready then
    some console
  else
    let wasBatching := console.batchActive
    let written ←
      s.foldlM
        (fun console ch => putcharInner font fuel ch console)
        { console with batchActive := true }
    let restored :=
      { written with batchActive := wasBatching }
    if !wasBatching then
      some (flushDeferredRedraw font restored)
    else
      some restored

/- The calls a client makes after initialisation. -/
inductive Op where
| putchar (ch : UInt8)
| write (s : List UInt8)
| setColor (red green blue : UInt8)
| setBackground (red green blue : UInt8)
| clear

def Op.run
    (font : Font)
    (fuel : Nat)
    (op : Op)
    (console : Console) : Option Console :=
  match op with
  | .putchar ch =>
      framebufferConsolePutchar font fuel ch console
  | .write s => framebufferConsoleWrite font fuel s console
  | .setColor red green blue =>
      some (framebufferConsoleSetColor red green blue console)
  | .setBackground red green blue =>
      some
        (framebufferConsoleSetBackground red green blue
          console)
  | .clear => some (framebufferConsoleClear console)

def runOps
    (font : Font)
    (fuel : Nat)
    (ops : List Op)
    (console : Console) : Option Console :=
  ops.foldlM (fun console op => op.run font fuel console)
    console

end Framebuffer

end Whirliscope
