import Whirliscope.Framebuffer.Console
import Whirliscope.Library.Raster

/-
  What the drawing functions do to the pixels of a cell grid.

  A cell of the grid is drawn inside its own rectangle, and
  the pixels that it gets depend on the cell only.

  Key definitions include:
    * `Layout`, `Console.On`
    * `cellPixel`

  Main theorems:
    * `paints_drawCellAt`
    * `paints_redraw`
    * `pixel_copyScreenUp`
-/

------------------------------------------------------------
-- Runs of Stores
------------------------------------------------------------

namespace Whirliscope

namespace Framebuffer

open ByteMemory

/- Storing a field that was read copies its bytes. -/
theorem bytesLE_getLE
    (memory : Bytes)
    (base : Nat)
    {width i : Nat}
    (hIndex : i < width) :
    bytesLE (getLE memory base width) i =
      memory (base + i) := by
  induction width generalizing base i with
  | zero => omega
  | succ width ih =>
      have hByte := (memory base).toNat_lt
      unfold bytesLE getLE
      cases i with
      | zero =>
          have hBase : memory (base + 0) = memory base := rfl
          rw [Nat.pow_zero, Nat.div_one, hBase]
          apply UInt8.toNat_inj.mp
          rw [UInt8.toNat_ofNat']
          omega
      | succ i =>
          have hRest :=
            ih (base + 1) (Nat.lt_of_succ_lt_succ hIndex)
          have hDiv :
              ((memory base).toNat +
                  256 * getLE memory (base + 1) width) /
                  256 ^ (i + 1) =
                getLE memory (base + 1) width / 256 ^ i := by
            rw [Nat.pow_succ', ← Nat.div_div_eq_div_mul]
            congr 1
            omega
          rw [hDiv]
          unfold bytesLE at hRest
          rw [hRest, Nat.add_assoc, Nat.add_comm 1]

/- Repeated stores of a value, as one store. -/
theorem storeRun_eq
    {width : Nat}
    (value count : Nat)
    {address : Nat}
    {memory : Bytes}
    (hWidth : 0 < width)
    (hEnd : address + width * count ≤ 2 ^ 64) :
    storeRun width value count address memory =
      write memory address (width * count) fun i =>
        bytesLE value (i % width) := by
  induction count generalizing address memory with
  | zero => rw [storeRun, Nat.mul_zero, write_zero]
  | succ count ih =>
      rw [Nat.mul_succ] at hEnd
      have hFirst :
          putLE memory address width value =
            write memory address width fun i =>
              bytesLE value (i % width) :=
        write_congr fun i hIndex => by
          rw [Nat.mod_eq_of_lt hIndex]
      rw [storeRun, hFirst, Nat.mul_succ]
      by_cases hLast : count = 0
      · rw [hLast, storeRun, Nat.mul_zero, Nat.zero_add]
      · have hStep : width ≤ width * count :=
          Nat.le_mul_of_pos_right width (by omega)
        rw [wrap_of_lt (by omega), ih (by omega),
          Nat.add_comm (width * count), ← write_append]
        apply write_congr
        intro i _
        rw [slice_apply, Nat.add_mod_left]

/- The bytes of two equal pixels in one word. -/
theorem bytesLE_twice
    {colour : Nat}
    (hColour : colour < 2 ^ 32)
    {i : Nat}
    (hIndex : i < 8) :
    bytesLE (colour + colour * 2 ^ 32) i =
      bytesLE colour (i % 4) := by
  unfold bytesLE
  apply UInt8.toNat_inj.mp
  rw [UInt8.toNat_ofNat', UInt8.toNat_ofNat']
  by_cases hLow : i < 4
  · obtain ⟨k, hk⟩ : ∃ k, 4 = k + 1 + i := ⟨3 - i, by omega⟩
    have hWord : 2 ^ 32 = 256 ^ k * 256 * 256 ^ i := by
      rw [← Nat.pow_succ, ← Nat.pow_add,
        show k + 1 + i = 4 from hk.symm]
      rfl
    rw [Nat.mod_eq_of_lt hLow, hWord, ← Nat.mul_assoc,
      Nat.add_mul_div_right _ _ (Nat.pow_pos (by decide)),
      ← Nat.mul_assoc, Nat.add_mul_mod_self_right]
  · obtain ⟨k, rfl⟩ : ∃ k, i = 4 + k := ⟨i - 4, by omega⟩
    have hWord : 256 ^ 4 = 2 ^ 32 := rfl
    rw [Nat.pow_add, ← Nat.div_div_eq_div_mul, hWord,
      Nat.add_mul_div_right _ _ (Nat.two_pow_pos 32),
      Nat.div_eq_of_lt hColour, Nat.zero_add,
      Nat.add_mod_left,
      Nat.mod_eq_of_lt (show k < 4 by omega)]

theorem bytesLE_pair
    {colour : Nat}
    (hColour : colour < 2 ^ 32)
    (i : Nat) :
    bytesLE (colour ||| colour <<< 32) (i % 8) =
      colourBytes colour i := by
  have hPair :
      colour ||| colour <<< 32 =
        colour + colour * 2 ^ 32 := by
    rw [Nat.or_comm,
      ← Nat.shiftLeft_add_eq_or_of_lt hColour,
      Nat.shiftLeft_eq, Nat.add_comm]
  have hFour : i % 8 % 4 = i % 4 := by omega
  rw [hPair,
    bytesLE_twice hColour (Nat.mod_lt i (by decide)), hFour]
  rfl

/- Filling pixels, aligned or not, is one store. -/
theorem fillPixels_eq
    {address width colour : Nat}
    {memory : Bytes}
    (hEnd : address + 4 * width ≤ 2 ^ 64)
    (hColour : colour < 2 ^ 32) :
    fillPixels address width colour memory =
      write memory address (4 * width)
        (colourBytes colour) := by
  unfold fillPixels
  split_ifs with hAligned
  · dsimp only
    have hPairs :
        (fun i => bytesLE (colour ||| colour <<< 32) (i % 8)) =
          colourBytes colour :=
      funext (bytesLE_pair hColour)
    have hSplit :
        4 * width =
          8 * (width / 2) + 4 * (width - 2 * (width / 2)) := by
      omega
    rw [storeRun_eq _ (width / 2) (by decide) (by omega),
      hPairs, hSplit, ← write_append]
    by_cases hEven : width - 2 * (width / 2) = 0
    · rw [hEven, storeRun, Nat.mul_zero, write_zero]
    · rw [wrap_of_lt
          (show address + 8 * (width / 2) < 2 ^ 64 by omega),
        storeRun_eq _ _ (by decide) (by omega)]
      apply write_congr
      intro i _
      rw [slice_apply]
      unfold colourBytes
      congr 1
      omega
  · exact storeRun_eq colour width (by decide) hEnd

/- Copying values forward from above is one store. -/
theorem copyRun_eq
    {width : Nat}
    (count : Nat)
    {dest src : Nat}
    {memory : Bytes}
    (hWidth : 0 < width)
    (hApart : dest + width * count ≤ src)
    (hEnd : src + width * count ≤ 2 ^ 64) :
    copyRun width count dest src memory =
      write memory dest (width * count)
        (slice memory src) := by
  induction count generalizing dest src memory with
  | zero => rw [copyRun, Nat.mul_zero, write_zero]
  | succ count ih =>
      rw [Nat.mul_succ] at hApart hEnd
      have hFirst :
          putLE memory dest width (getLE memory src width) =
            write memory dest width (slice memory src) :=
        write_congr fun i hIndex =>
          bytesLE_getLE memory src hIndex
      rw [copyRun, hFirst, Nat.mul_succ]
      by_cases hLast : count = 0
      · rw [hLast, copyRun, Nat.mul_zero, Nat.zero_add]
      · have hStep : width ≤ width * count :=
          Nat.le_mul_of_pos_right width (by omega)
        rw [wrap_of_lt (show dest + width < 2 ^ 64 by omega),
          wrap_of_lt (show src + width < 2 ^ 64 by omega),
          ih (by omega) (by omega),
          Nat.add_comm (width * count), ← write_append]
        -- the values still to be read lie above the first store
        apply write_congr
        intro i _
        rw [slice_apply, slice_apply, slice_apply,
          write_of_not_mem (.inr (by omega)), Nat.add_assoc]

theorem copyRowForward_eq
    {dest src bytes : Nat}
    {memory : Bytes}
    (hApart : dest + bytes ≤ src)
    (hEnd : src + bytes ≤ 2 ^ 64) :
    copyRowForward dest src bytes memory =
      write memory dest bytes (slice memory src) := by
  unfold copyRowForward
  split_ifs with hAligned
  · dsimp only
    have hSplit :
        bytes = 8 * (bytes / 8) + (bytes - 8 * (bytes / 8)) := by
      omega
    rw [copyRun_eq (bytes / 8) (by decide) (by omega)
      (by omega)]
    by_cases hWords : bytes - 8 * (bytes / 8) = 0
    · have hBytes : 8 * (bytes / 8) = bytes := by omega
      rw [hWords, copyRun, hBytes]
    · rw [wrap_of_lt
          (show dest + 8 * (bytes / 8) < 2 ^ 64 by omega),
        wrap_of_lt
          (show src + 8 * (bytes / 8) < 2 ^ 64 by omega),
        copyRun_eq _ (by decide) (by omega) (by omega),
        Nat.one_mul]
      conv_rhs => rw [hSplit, ← write_append]
      apply write_congr
      intro i _
      rw [slice_apply, slice_apply, slice_apply,
        write_of_not_mem (.inr (by omega)), Nat.add_assoc]
  · rw [copyRun_eq bytes (by decide) (by omega) (by omega),
      Nat.one_mul]

end Framebuffer

end Whirliscope

------------------------------------------------------------
-- Spans and Rectangles
------------------------------------------------------------

namespace Whirliscope

namespace Framebuffer

open ByteMemory

/- A grid of cells in an addressable raster. -/
structure Layout (font : Font) where
  raster : Raster
  cols : Nat
  rows : Nat
  colsPos : 0 < cols
  rowsPos : 0 < rows
  colsSmall : cols ≤ 2 ^ 63
  rowsSmall : rows ≤ 2 ^ 63
  wide : cols * font.cellWidth ≤ raster.width
  high : rows * font.cellHeight ≤ raster.height
  addressable :
    raster.base + raster.height * raster.pitch ≤ 2 ^ 64

/- A console that draws on a layout. -/
structure Console.On
    (console : Console)
    {font : Font}
    (L : Layout font) : Prop where
  base : console.base = L.raster.base
  pitch : console.pitch = L.raster.pitch
  width : console.width = L.raster.width
  height : console.height = L.raster.height
  cols : console.cols = L.cols
  rows : console.rows = L.rows

section

variable {font : Font} {L : Layout font} {console : Console}

theorem Layout.address_lt
    (L : Layout font)
    {x y : Nat}
    (hX : x ≤ L.raster.width)
    (hY : y < L.raster.height) :
    L.raster.address x y ≤ 2 ^ 64 :=
  (L.raster.address_le hX hY).trans L.addressable

/- The cells of the grid are in the raster. -/
theorem Layout.cell_inside
    (L : Layout font)
    {col row : Nat}
    (hCol : col < L.cols)
    (hRow : row < L.rows) :
    col * font.cellWidth + font.cellWidth ≤
        L.raster.width ∧
      row * font.cellHeight + font.cellHeight ≤
        L.raster.height := by
  have hWide : (col + 1) * font.cellWidth ≤ _ :=
    (Nat.mul_le_mul_right _ hCol).trans L.wide
  have hHigh : (row + 1) * font.cellHeight ≤ _ :=
    (Nat.mul_le_mul_right _ hRow).trans L.high
  rw [Nat.add_mul, Nat.one_mul] at hWide hHigh
  exact ⟨hWide, hHigh⟩

theorem Console.On.pixelAddress_eq
    (hOn : console.On L)
    {x y : Nat}
    (hX : x < L.raster.width)
    (hY : y < L.raster.height) :
    pixelAddress console x y = L.raster.address x y := by
  have hEnd :=
    L.address_lt (show x + 1 ≤ L.raster.width from hX) hY
  unfold Raster.address at hEnd
  unfold pixelAddress Raster.address
  rw [hOn.base, hOn.pitch, wrap_of_lt (by omega),
    Nat.mul_comm x]

theorem paints_fillSpan
    (hOn : console.On L)
    {x y count colour : Nat}
    (hX : x + count ≤ L.raster.width)
    (hY : y < L.raster.height)
    (hColour : colour < 2 ^ 32) :
    Paints L.raster (fillSpan console x y count colour)
      (fun px py => py = y ∧ x ≤ px ∧ px < x + count)
      (fun _ _ => colour) := by
  by_cases hNone : count = 0
  · subst hNone
    have hSame :
        fillSpan console x y 0 colour =
          fun memory => memory := by
      funext memory
      have hAddress :
          pixelAddress console x y + 4 * 0 ≤ 2 ^ 64 :=
        Nat.le_of_lt (wrap_lt 64 _)
      rw [fillSpan, fillPixels_eq hAddress hColour,
        Nat.mul_zero, write_zero]
    rw [hSame]
    apply (Paints.none fun _ _ => colour).congr
    · intro px py _
      exact iff_of_false (by omega) id
    · intro px py hFalse
      exact hFalse.elim
  · have hFill :
        fillSpan console x y count colour =
          fun memory =>
            write memory (L.raster.address x y) (4 * count)
              (colourBytes colour) := by
      funext memory
      have hEnd := L.address_lt hX hY
      unfold Raster.address at hEnd
      rw [fillSpan, hOn.pixelAddress_eq (by omega) hY]
      apply fillPixels_eq _ hColour
      unfold Raster.address
      omega
    rw [hFill]
    exact paints_span hX hColour

theorem paints_clearRectColor
    (hOn : console.On L)
    {x y width height colour : Nat}
    (hX : x + width ≤ L.raster.width)
    (hY : y + height ≤ L.raster.height)
    (hColour : colour < 2 ^ 32) :
    Paints L.raster
      (clearRectColor console x y width height colour)
      (fun px py =>
        (x ≤ px ∧ px < x + width) ∧
          y ≤ py ∧ py < y + height)
      (fun _ _ => colour) := by
  have hRows :
      Paints L.raster
        (clearRectColor console x y width height colour)
        (fun px py =>
          ∃ row, row < height ∧
            (py = y + row ∧ x ≤ px ∧ px < x + width))
        (fun _ _ => colour) := by
    apply Paints.foldl
    intro row hRow
    exact paints_fillSpan hOn hX (by omega) hColour
  apply hRows.congr
  · intro px py _
    constructor
    · rintro ⟨hIn, hTop, hBottom⟩
      exact ⟨py - y, by omega, by omega, hIn⟩
    · rintro ⟨row, hRow, rfl, hIn⟩
      exact ⟨hIn, by omega, by omega⟩
  · intro px py _
    rfl

end

end Framebuffer

end Whirliscope

------------------------------------------------------------
-- Cells
------------------------------------------------------------

namespace Whirliscope

namespace Framebuffer

open ByteMemory

/- A set pixel of the glyph of a cell, scaled up. -/
def GlyphPixel
    (font : Font)
    (cell : FramebufferCell)
    (x y : Nat) : Prop :=
  cell.ch ≠ 32 ∧
    ∃ glyphX, glyphX < font.width ∧
      ∃ glyphY, glyphY < font.height ∧
        glyphBit font (glyphFor font cell.ch glyphY) glyphX =
            true ∧
          (1 + glyphX * fontScale ≤ x ∧
            x < 1 + glyphX * fontScale + fontScale) ∧
          1 + glyphY * fontScale ≤ y ∧
            y < 1 + glyphY * fontScale + fontScale

open Classical in
/- The colour of a pixel of a cell. -/
noncomputable def cellPixel
    (font : Font)
    (cell : FramebufferCell)
    (x y : Nat) : Nat :=
  if GlyphPixel font cell x y then cell.fg else cell.bg

/- The colours of a cell are 32-bit values. -/
structure FramebufferCell.Sound
    (cell : FramebufferCell) : Prop where
  fg : cell.fg < 2 ^ 32
  bg : cell.bg < 2 ^ 32

theorem cellWidth_eq
    (font : Font) :
    font.cellWidth = font.width * fontScale + 2 := by
  unfold Font.cellWidth fontScale
  omega

theorem cellHeight_eq
    (font : Font) :
    font.cellHeight = font.height * fontScale + 2 := by
  unfold Font.cellHeight fontScale
  omega

section

variable {font : Font} {L : Layout font} {console : Console}

/- A run of set pixels. -/
theorem glyphRunEnd_spec
    {rowBits : UInt8}
    (fuel : Nat)
    {glyphX : Nat}
    (hInside : glyphX < font.width)
    (hBit : glyphBit font rowBits glyphX = true) :
    glyphX ≤ glyphRunEnd font rowBits fuel glyphX ∧
      (0 < fuel →
        glyphX < glyphRunEnd font rowBits fuel glyphX) ∧
      glyphRunEnd font rowBits fuel glyphX ≤ font.width ∧
      ∀ k, glyphX ≤ k →
        k < glyphRunEnd font rowBits fuel glyphX →
          glyphBit font rowBits k = true := by
  have hOne :
      ∀ k, glyphX ≤ k → k < glyphX + 1 →
        glyphBit font rowBits k = true := by
    intro k hLow hHigh
    have hSame : k = glyphX := by omega
    rw [hSame]
    exact hBit
  induction fuel generalizing glyphX with
  | zero =>
      unfold glyphRunEnd
      exact ⟨Nat.le_refl _, by omega, by omega, by omega⟩
  | succ fuel ih =>
      unfold glyphRunEnd
      split_ifs with hLast hNext
      · exact ⟨by omega, by omega, by omega, hOne⟩
      · have hNextOne :
            ∀ k, glyphX + 1 ≤ k → k < glyphX + 1 + 1 →
              glyphBit font rowBits k = true := by
          intro k hLow hHigh
          have hSame : k = glyphX + 1 := by omega
          rw [hSame]
          exact hNext
        rcases ih (by omega) hNext hNextOne with
          ⟨hLow, -, hHigh, hBits⟩
        refine ⟨by omega, by omega, hHigh, ?_⟩
        intro k hK hEnd
        by_cases hFirst : k < glyphX + 1
        · exact hOne k hK hFirst
        · exact hBits k (by omega) hEnd
      · exact ⟨by omega, by omega, by omega, hOne⟩

/- The set pixels of a row of a glyph, from a column on. -/
def RowPixel
    (font : Font)
    (x pixelY : Nat)
    (rowBits : UInt8)
    (glyphX px py : Nat) : Prop :=
  ∃ k, glyphX ≤ k ∧ k < font.width ∧
    glyphBit font rowBits k = true ∧
    (x + 1 + k * fontScale ≤ px ∧
      px < x + 1 + k * fontScale + fontScale) ∧
    pixelY ≤ py ∧ py < pixelY + fontScale

/- The spans of a run of set pixels. -/
theorem paints_run
    (hOn : console.On L)
    {x pixelY count colour : Nat}
    (hX : x + count ≤ L.raster.width)
    (hY : pixelY + fontScale ≤ L.raster.height)
    (hColour : colour < 2 ^ 32) :
    Paints L.raster
      (fun memory =>
        (List.range fontScale).foldl
          (fun memory dy =>
            fillSpan console x (pixelY + dy) count colour
              memory)
          memory)
      (fun px py =>
        (x ≤ px ∧ px < x + count) ∧
          pixelY ≤ py ∧ py < pixelY + fontScale)
      (fun _ _ => colour) := by
  have hSpans :
      Paints L.raster
        (fun memory =>
          (List.range fontScale).foldl
            (fun memory dy =>
              fillSpan console x (pixelY + dy) count colour
                memory)
            memory)
        (fun px py =>
          ∃ dy, dy < fontScale ∧
            (py = pixelY + dy ∧ x ≤ px ∧ px < x + count))
        (fun _ _ => colour) := by
    apply Paints.foldl
    intro dy hDy
    exact paints_fillSpan hOn hX (by omega) hColour
  apply hSpans.congr
  · intro px py _
    constructor
    · rintro ⟨hIn, hTop, hBottom⟩
      exact ⟨py - pixelY, by omega, by omega, hIn⟩
    · rintro ⟨dy, hDy, rfl, hIn⟩
      exact ⟨hIn, by omega, by omega⟩
  · intro px py _
    rfl

/- One row of a glyph is drawn run by run. -/
theorem paints_drawGlyphRow
    (hOn : console.On L)
    {x pixelY colour : Nat}
    {rowBits : UInt8}
    (hX : x + font.cellWidth ≤ L.raster.width)
    (hY : pixelY + fontScale ≤ L.raster.height)
    (hColour : colour < 2 ^ 32)
    {fuel glyphX : Nat}
    (hFuel : font.width ≤ glyphX + fuel) :
    Paints L.raster
      (drawGlyphRow font console x pixelY colour rowBits fuel
        glyphX)
      (RowPixel font x pixelY rowBits glyphX)
      (fun _ _ => colour) := by
  have hDone :
      ∀ glyphX, font.width ≤ glyphX →
        Paints L.raster (fun memory => memory)
          (RowPixel font x pixelY rowBits glyphX)
          (fun _ _ => colour) := by
    intro glyphX hEnd
    apply (Paints.none fun _ _ => colour).congr
    · intro px py _
      apply iff_of_false _ id
      rintro ⟨k, hLow, hHigh, -⟩
      omega
    · intro px py hFalse
      exact hFalse.elim
  induction fuel generalizing glyphX with
  | zero => exact hDone glyphX (by omega)
  | succ fuel ih =>
      by_cases hIn : glyphX < font.width
      · by_cases hBit : glyphBit font rowBits glyphX = true
        · -- the run of set pixels, and the rest of the row
          rcases glyphRunEnd_spec font.width hIn hBit with
            ⟨-, hStart, hEnd, hBits⟩
          have hStart := hStart (by omega)
          have hWidth := cellWidth_eq font
          have hStep :
              drawGlyphRow font console x pixelY colour
                  rowBits (fuel + 1) glyphX =
                fun memory =>
                  drawGlyphRow font console x pixelY colour
                    rowBits fuel
                    (glyphRunEnd font rowBits font.width
                      glyphX)
                    ((List.range fontScale).foldl
                      (fun memory dy =>
                        fillSpan console
                          (x + 1 + glyphX * fontScale)
                          (pixelY + dy)
                          ((glyphRunEnd font rowBits
                            font.width glyphX - glyphX) *
                              fontScale)
                          colour memory)
                      memory) := by
            funext memory
            rw [drawGlyphRow, if_pos hIn, if_pos hBit]
          generalize
            glyphRunEnd font rowBits font.width glyphX =
              runEnd at *
          rw [hStep]
          have hRun :=
            paints_run hOn
              (show x + 1 + glyphX * fontScale +
                  (runEnd - glyphX) * fontScale ≤
                    L.raster.width by
                unfold fontScale at *
                omega)
              hY hColour
          have hBoth :=
            hRun.followedBy
              (ih (show font.width ≤ runEnd + fuel by omega))
              (fun _ _ _ => rfl) fun _ _ _ _ => rfl
          apply hBoth.congr
          · intro px py _
            unfold RowPixel fontScale
            constructor
            · rintro ⟨k, hLow, hHigh, hSet, hPlace⟩
              by_cases hFirst : k < runEnd
              · exact .inl (by omega)
              · exact .inr ⟨k, by omega, hHigh, hSet, hPlace⟩
            · rintro (hPlace | ⟨k, hLow, hRow⟩)
              · have hColumn :
                    (px - (x + 1)) / 2 < runEnd := by
                  omega
                exact ⟨(px - (x + 1)) / 2, by omega,
                  by omega, hBits _ (by omega) hColumn,
                  by omega⟩
              · exact ⟨k, by omega, hRow⟩
          · intro px py _
            rfl
        · have hStep :
              drawGlyphRow font console x pixelY colour
                  rowBits (fuel + 1) glyphX =
                drawGlyphRow font console x pixelY colour
                  rowBits fuel (glyphX + 1) := by
            funext memory
            rw [drawGlyphRow, if_pos hIn, if_neg hBit]
          rw [hStep]
          apply (ih
            (show font.width ≤ glyphX + 1 + fuel by
              omega)).congr
          · intro px py _
            constructor
            · rintro ⟨k, hLow, hHigh, hSet, hPlace⟩
              have hDiffers : k ≠ glyphX := by
                rintro rfl
                exact hBit hSet
              exact ⟨k, by omega, hHigh, hSet, hPlace⟩
            · rintro ⟨k, hLow, hRow⟩
              exact ⟨k, by omega, hRow⟩
          · intro px py _
            rfl
      · have hStep :
            drawGlyphRow font console x pixelY colour
                rowBits (fuel + 1) glyphX =
              fun memory => memory := by
          funext memory
          rw [drawGlyphRow, if_neg hIn]
        rw [hStep]
        exact hDone glyphX (by omega)

theorem cellWidth_pos
    (font : Font) :
    0 < font.cellWidth := by
  rw [cellWidth_eq]
  omega

theorem cellHeight_pos
    (font : Font) :
    0 < font.cellHeight := by
  rw [cellHeight_eq]
  omega

/- The pixels of a cell. -/
def InCell
    (font : Font)
    (col row x y : Nat) : Prop :=
  x / font.cellWidth = col ∧ y / font.cellHeight = row

theorem inCell_iff
    {col row x y : Nat} :
    InCell font col row x y ↔
      (col * font.cellWidth ≤ x ∧
          x < col * font.cellWidth + font.cellWidth) ∧
        row * font.cellHeight ≤ y ∧
          y < row * font.cellHeight + font.cellHeight := by
  have hSpread :
      ∀ size index place : Nat, 0 < size →
        (place / size = index ↔
          index * size ≤ place ∧
            place < index * size + size) := by
    intro size index place hSize
    rw [Nat.div_eq_iff hSize]
    omega
  unfold InCell
  rw [hSpread _ _ _ (cellWidth_pos font),
    hSpread _ _ _ (cellHeight_pos font)]

/- A place in a cell, from the corner of the cell. -/
theorem InCell.offset
    {col row x y : Nat}
    (hIn : InCell font col row x y) :
    x % font.cellWidth = x - col * font.cellWidth ∧
      y % font.cellHeight = y - row * font.cellHeight := by
  rcases hIn with ⟨rfl, rfl⟩
  rw [Nat.mod_eq_sub_div_mul, Nat.mod_eq_sub_div_mul]
  exact ⟨rfl, rfl⟩

theorem cellPixel_of_glyph
    {cell : FramebufferCell}
    {x y : Nat}
    (hGlyph : GlyphPixel font cell x y) :
    cellPixel font cell x y = cell.fg :=
  if_pos hGlyph

theorem cellPixel_of_not_glyph
    {cell : FramebufferCell}
    {x y : Nat}
    (hGlyph : ¬ GlyphPixel font cell x y) :
    cellPixel font cell x y = cell.bg :=
  if_neg hGlyph

/- A cell without a glyph shows its background. -/
theorem cellPixel_space
    {cell : FramebufferCell}
    (hSpace : cell.ch = 32)
    (x y : Nat) :
    cellPixel font cell x y = cell.bg :=
  cellPixel_of_not_glyph fun hGlyph => hGlyph.1 hSpace

/- The rectangle of a cell in one colour. -/
theorem paints_cellRect
    (hOn : console.On L)
    {col row colour : Nat}
    (hCol : col < L.cols)
    (hRow : row < L.rows)
    (hColour : colour < 2 ^ 32) :
    Paints L.raster
      (clearRectColor console (col * font.cellWidth)
        (row * font.cellHeight) font.cellWidth
        font.cellHeight colour)
      (InCell font col row)
      (fun _ _ => colour) := by
  rcases L.cell_inside hCol hRow with ⟨hX, hY⟩
  apply (paints_clearRectColor hOn hX hY hColour).congr
  · intro x y _
    exact inCell_iff
  · intro x y _
    rfl

/-
  Drawing a cell paints its rectangle, with colours that
  depend on the cell only.
-/
theorem paints_drawCellAt
    (hOn : console.On L)
    {col row : Nat}
    (hCol : col < L.cols)
    (hRow : row < L.rows)
    {cell : FramebufferCell}
    (hCell : cell.Sound) :
    Paints L.raster (drawCellAt font console col row cell)
      (InCell font col row)
      (fun x y =>
        cellPixel font cell (x % font.cellWidth)
          (y % font.cellHeight)) := by
  rcases L.cell_inside hCol hRow with ⟨hX, hY⟩
  have hClear := paints_cellRect hOn hCol hRow hCell.bg
  by_cases hSpace : cell.ch = 32
  · have hDraw :
        drawCellAt font console col row cell =
          clearRectColor console (col * font.cellWidth)
            (row * font.cellHeight) font.cellWidth
            font.cellHeight cell.bg := by
      funext memory
      exact if_pos hSpace
    rw [hDraw]
    apply hClear.congr
    · intro x y _
      rfl
    · intro x y _
      exact cellPixel_space hSpace _ _
  have hDraw :
      drawCellAt font console col row cell =
        fun memory =>
          (List.range font.height).foldl
            (fun memory glyphY =>
              drawGlyphRow font console
                (col * font.cellWidth)
                (row * font.cellHeight + 1 +
                  glyphY * fontScale)
                cell.fg (glyphFor font cell.ch glyphY)
                font.width 0 memory)
            (clearRectColor console (col * font.cellWidth)
              (row * font.cellHeight) font.cellWidth
              font.cellHeight cell.bg memory) := by
    funext memory
    exact if_neg hSpace
  have hHeight := cellHeight_eq font
  have hGlyph :
      Paints L.raster
        (fun memory =>
          (List.range font.height).foldl
            (fun memory glyphY =>
              drawGlyphRow font console
                (col * font.cellWidth)
                (row * font.cellHeight + 1 +
                  glyphY * fontScale)
                cell.fg (glyphFor font cell.ch glyphY)
                font.width 0 memory)
            memory)
        (fun x y =>
          ∃ glyphY, glyphY < font.height ∧
            RowPixel font (col * font.cellWidth)
              (row * font.cellHeight + 1 +
                glyphY * fontScale)
              (glyphFor font cell.ch glyphY) 0 x y)
        (fun _ _ => cell.fg) := by
    apply Paints.foldl
    intro glyphY hGlyphY
    apply paints_drawGlyphRow hOn hX _ hCell.fg (by omega)
    unfold fontScale at *
    omega
  have hSame :
      ∀ x y, InCell font col row x y →
        (GlyphPixel font cell (x % font.cellWidth)
            (y % font.cellHeight) ↔
          ∃ glyphY, glyphY < font.height ∧
            RowPixel font (col * font.cellWidth)
              (row * font.cellHeight + 1 +
                glyphY * fontScale)
              (glyphFor font cell.ch glyphY) 0 x y) := by
    intro x y hIn
    rw [hIn.offset.1, hIn.offset.2]
    rw [inCell_iff] at hIn
    constructor
    · rintro ⟨-, k, hK, glyphY, hGlyphY, hBit, hPlace⟩
      exact ⟨glyphY, hGlyphY, k, Nat.zero_le k, hK, hBit,
        by omega⟩
    · rintro ⟨glyphY, hGlyphY, k, -, hK, hBit, hPlace⟩
      exact ⟨hSpace, k, hK, glyphY, hGlyphY, hBit, by omega⟩
  have hInside :
      ∀ x y,
        (∃ glyphY, glyphY < font.height ∧
          RowPixel font (col * font.cellWidth)
            (row * font.cellHeight + 1 + glyphY * fontScale)
            (glyphFor font cell.ch glyphY) 0 x y) →
          InCell font col row x y := by
    rintro x y ⟨glyphY, hGlyphY, k, -, hK, -, hPlace⟩
    have hWidth := cellWidth_eq font
    rw [inCell_iff]
    unfold fontScale at *
    omega
  rw [hDraw]
  apply (Paints.followedBy hClear hGlyph
    (fun x y hCover =>
      cellPixel_of_glyph
        ((hSame x y (hInside x y hCover)).mpr hCover))
    (fun x y hIn hCover =>
      cellPixel_of_not_glyph fun hPixel =>
        hCover ((hSame x y hIn).mp hPixel))).congr
  · intro x y _
    exact ⟨.inl, fun hIn => hIn.elim id (hInside x y)⟩
  · intro x y _
    rfl

/- Redrawing every cell of the grid. -/
theorem paints_redraw
    (hOn : console.On L)
    {cells : Nat → Nat → FramebufferCell}
    (hCells :
      ∀ row col, row < L.rows → col < L.cols →
        (cells row col).Sound) :
    Paints L.raster
      (fun memory =>
        (List.range L.rows).foldl
          (fun memory row =>
            (List.range L.cols).foldl
              (fun memory col =>
                drawCellAt font console col row
                  (cells row col) memory)
              memory)
          memory)
      (fun x y =>
        x / font.cellWidth < L.cols ∧
          y / font.cellHeight < L.rows)
      (fun x y =>
        cellPixel font
          (cells (y / font.cellHeight) (x / font.cellWidth))
          (x % font.cellWidth) (y % font.cellHeight)) := by
  have hRows :
      Paints L.raster
        (fun memory =>
          (List.range L.rows).foldl
            (fun memory row =>
              (List.range L.cols).foldl
                (fun memory col =>
                  drawCellAt font console col row
                    (cells row col) memory)
                memory)
            memory)
        (fun x y =>
          ∃ row, row < L.rows ∧ ∃ col, col < L.cols ∧
            InCell font col row x y)
        (fun x y =>
          cellPixel font
            (cells (y / font.cellHeight)
              (x / font.cellWidth))
            (x % font.cellWidth) (y % font.cellHeight)) := by
    apply Paints.foldl
    intro row hRow
    apply Paints.foldl
    intro col hCol
    apply (paints_drawCellAt hOn hCol hRow
      (hCells row col hRow hCol)).congr
    · intro x y _
      rfl
    · rintro x y ⟨rfl, rfl⟩
      rfl
  apply hRows.congr
  · intro x y _
    constructor
    · rintro ⟨hCol, hRow⟩
      exact ⟨_, hRow, _, hCol, rfl, rfl⟩
    · rintro ⟨row, hRow, col, hCol, rfl, rfl⟩
      exact ⟨hCol, hRow⟩
  · intro x y _
    rfl

/- Scrolling by copying: rows come from one cell below. -/
theorem pixel_copyScreenUp
    (hOn : console.On L)
    {x y : Nat}
    (hX : x < L.raster.width) :
    L.raster.pixel (copyScreenUp font console).memory x y =
      if y < (L.rows - 1) * font.cellHeight ∧
          x < L.cols * font.cellWidth then
        L.raster.pixel console.memory x
          (y + font.cellHeight)
      else
        L.raster.pixel console.memory x y := by
  have hHigh := L.high
  have hRowsPos := L.rowsPos
  have hCellHeight := cellHeight_pos font
  have hRows :
      (L.rows - 1) * font.cellHeight + font.cellHeight ≤
        L.raster.height := by
    have hLast :=
      (L.cell_inside L.colsPos
        (show L.rows - 1 < L.rows by omega)).2
    exact hLast
  unfold copyScreenUp
  dsimp only
  rw [hOn.cols, hOn.rows]
  apply pixel_copyRows _ _ hX
  intro k hK memory x y hX
  have hWidth : 0 < L.raster.width := by omega
  have hCount := L.wide
  have hBytes :
      L.cols * font.cellWidth * 4 =
        4 * (L.cols * font.cellWidth) :=
    Nat.mul_comm _ _
  rw [hOn.pixelAddress_eq hWidth (by omega),
    hOn.pixelAddress_eq hWidth (by omega), hBytes,
    copyRowForward_eq]
  · exact pixel_copyRow hCount hX
  · have hApart :=
      L.raster.address_le hCount
        (show k < k + font.cellHeight by omega)
    unfold Raster.address at hApart ⊢
    omega
  · have hEnd :=
      L.address_lt hCount
        (show k + font.cellHeight < L.raster.height by omega)
    unfold Raster.address at hEnd ⊢
    omega

end

end Framebuffer

end Whirliscope
