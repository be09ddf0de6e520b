import Mathlib.Data.Nat.Bitwise
import Mathlib.Data.Rat.Defs
import Whirliscope.Framebuffer.Cursor
import Whirliscope.Framebuffer.Drawing

/-
  The font generator and what its table draws.

  The generator packs the pixel rows of a font JSON into the
  bytes of the glyph table that the console draws from. The
  text of an error shows a value as Python does; how it does
  is a parameter.

  Key definitions include:
    * `Json`
    * `selectedCharacters`, `inferDimensions`
    * `glyphRowToByte`, `buildGlyphs`
    * `fontgen`
    * `Lists`, `setPixel`

  Main theorem:
    * `listed_glyph_drawn`
-/

------------------------------------------------------------
-- Font Files
------------------------------------------------------------

namespace Whirliscope

namespace Fontgen

/-
  A value that `json.loads` returns. The keys of a dict
  differ. A float that is not finite is `none`.
-/
inductive Json
| null
| bool (value : Bool)
| int (value : Int)
| float (value : Option Rat)
| str (text : String)
| list (items : List Json)
| dict (fields : List (String × Json))

namespace Json

def typeName : Json → String
| null => "NoneType"
| bool _ => "bool"
| int _ => "int"
| float _ => "float"
| str _ => "str"
| list _ => "list"
| dict _ => "dict"

/- `isinstance(value, int)`, which holds of booleans. -/
def asInt : Json → Option Int
| bool value => some value.toInt
| int value => some value
| _ => none

/- `value in (0, 1)`, with whether the value is set. -/
def asPixel : Json → Option Bool
| bool value => some value
| int value =>
    if value = 0 then some false
    else if value = 1 then some true
    else none
| float (some value) =>
    if value = 0 then some false
    else if value = 1 then some true
    else none
| _ => none

def items : Json → List Json
| list items => items
| _ => []

end Json

/- `dict.get`: a missing key gives `None`. -/
def getField
    (fields : List (String × Json))
    (key : String) : Json :=
  (fields.lookup key).getD .null

/-
  A selected record: its code point, the code point as text,
  and its list of pixel rows.
-/
structure Character where
  codepoint : Int
  shown : String
  pixels : List Json

/- The loop of `selected_characters`. -/
def selectLoop
    (repr : Json → String)
    (first last : Int) :
    List Json → Except String (List Character)
| [] => .ok []
| .dict fields :: characters =>
    match (getField fields "codepoint").asInt with
    | none => selectLoop repr first last characters
    | some codepoint =>
        let shown := repr (getField fields "codepoint")
        if first ≤ codepoint ∧ codepoint ≤ last then
          match getField fields "pixels" with
          | .list pixels => do
              let selected ←
                selectLoop repr first last characters
              .ok (⟨codepoint, shown, pixels⟩ :: selected)
          | _ =>
              .error
                ("codepoint " ++ shown ++
                  ": pixels must be a list")
        else
          selectLoop repr first last characters
| character :: _ =>
    .error
      ("'" ++ character.typeName ++
        "' object has no attribute 'get'")

/- `selected_characters`. -/
def selectedCharacters
    (repr : Json → String)
    (characters : List Json)
    (first last : Int) : Except String (List Character) := do
  let selected ← selectLoop repr first last characters
  if selected = [] then
    .error
      ("no glyphs found in requested range " ++
        toString first ++ "-" ++ toString last)
  else
    .ok selected

end Fontgen

end Whirliscope

------------------------------------------------------------
-- The Glyph Table
------------------------------------------------------------

namespace Whirliscope

namespace Fontgen

open Framebuffer (Font)

def maxPackedWidth : Nat := 8

/- The longest row so far, over the rows of a character. -/
def widestRow
    (shown : String) :
    List Json → Nat → Except String Nat
| [], fontWidth => .ok fontWidth
| .list row :: rows, fontWidth =>
    widestRow shown rows (max fontWidth row.length)
| _ :: _, _ =>
    .error
      ("codepoint " ++ shown ++
        ": each pixel row must be a list")

/- The loop of `infer_dimensions`. -/
def dimensionsLoop :
    List Character → Nat → Nat → Except String (Nat × Nat)
| [], fontWidth, fontHeight => .ok (fontWidth, fontHeight)
| character :: selected, fontWidth, fontHeight => do
    let fontWidth ←
      widestRow character.shown character.pixels fontWidth
    dimensionsLoop selected fontWidth
      (max fontHeight character.pixels.length)

/- `infer_dimensions`. -/
def inferDimensions
    (selected : List Character) :
    Except String (Nat × Nat) := do
  let (fontWidth, fontHeight) ← dimensionsLoop selected 0 0
  if fontWidth = 0 ∨ fontHeight = 0 then
    .error "font glyphs must contain at least one pixel"
  else if fontWidth > maxPackedWidth then
    .error
      ("font width " ++ toString fontWidth ++
        " exceeds packed uint8_t limit of " ++
        toString maxPackedWidth)
  else
    .ok (fontWidth, fontHeight)

/- The loop of `glyph_row_to_byte`. -/
def packPixels
    (repr : Json → String)
    (shown : String)
    (fontWidth : Nat) :
    List Json → Nat → Nat → Except String Nat
| [], _, value => .ok value
| pixel :: row, index, value =>
    match pixel.asPixel with
    | none =>
        .error
          ("codepoint " ++ shown ++
            ": expected pixel value 0 or 1, got " ++
            repr pixel)
    | some true =>
        packPixels repr shown fontWidth row (index + 1)
          (value ||| 1 <<< (fontWidth - 1 - index))
    | some false =>
        packPixels repr shown fontWidth row (index + 1) value

/- `glyph_row_to_byte`. -/
def glyphRowToByte
    (repr : Json → String)
    (row : List Json)
    (fontWidth : Nat)
    (shown : String) : Except String Nat :=
  if row.length > fontWidth then
    .error
      ("codepoint " ++ shown ++
        ": expected row width at most " ++
        toString fontWidth ++ ", got " ++
        toString row.length)
  else
    packPixels repr shown fontWidth row 0 0

/- The rows of the code points that have any. -/
abbrev Glyphs : Type :=
  Int → Option (List Nat)

/-
  The first loop of `build_glyphs`. A row is a list by now:
  `infer_dimensions` has refused any other value.
-/
def packGlyphs
    (repr : Json → String)
    (fontWidth fontHeight : Nat) :
    List Character → Glyphs → Except String Glyphs
| [], glyphs => .ok glyphs
| character :: selected, glyphs => do
    let rows ←
      character.pixels.mapM fun row =>
        glyphRowToByte repr row.items fontWidth
          character.shown
    packGlyphs repr fontWidth fontHeight selected
      (Function.update glyphs character.codepoint
        (some
          (rows ++
            List.replicate (fontHeight - rows.length) 0)))

/-
  `build_glyphs`: a missing code point of the range gets the
  rows of the question mark.
-/
def buildGlyphs
    (repr : Json → String)
    (selected : List Character)
    (first last : Int)
    (fontWidth fontHeight : Nat) : Except String Glyphs := do
  let glyphs ←
    packGlyphs repr fontWidth fontHeight selected fun _ => none
  let fallback :=
    (glyphs 63).getD (List.replicate fontHeight 0)
  .ok fun codepoint =>
    match glyphs codepoint with
    | some rows => some rows
    | none =>
        if first ≤ codepoint ∧ codepoint ≤ last then
          some fallback
        else
          none

/-
  `write_header`: the table that the header declares. The
  comment of each entry shows the character, which `chr`
  refuses outside its range.
-/
def writeHeader
    (glyphs : Glyphs)
    (first last : Int)
    (fontWidth fontHeight : Nat) : Except String Font :=
  if first < 0 ∨ 0x10FFFF < last then
    .error "chr() arg not in range(0x110000)"
  else
    .ok
      { width := fontWidth
        height := fontHeight
        first := first.toNat
        last := last.toNat
        rows := fun index y =>
          UInt8.ofNat
            (((glyphs (first + index)).getD []).getD y 0) }

/- `load_characters`, of the JSON text already read. -/
def loadCharacters : Json → Except String (List Json)
| .list characters => .ok characters
| _ =>
    .error
      "font JSON must contain a list of character records"

/- `main`, with the values of `--first` and `--last`. -/
def fontgen
    (repr : Json → String)
    (data : Json)
    (first last : Int) : Except String Font := do
  if first > last then
    .error "--first must be less than or equal to --last"
  else
    let characters ← loadCharacters data
    let selected ←
      selectedCharacters repr characters first last
    let (fontWidth, fontHeight) ← inferDimensions selected
    let glyphs ←
      buildGlyphs repr selected first last fontWidth fontHeight
    writeHeader glyphs first last fontWidth fontHeight

end Fontgen

end Whirliscope

------------------------------------------------------------
-- Accepted Fonts
------------------------------------------------------------

namespace Whirliscope

namespace Fontgen

/- The code point of a record. -/
def recordCodepoint : Json → Option Int
| .dict fields => (getField fields "codepoint").asInt
| _ => none

/- The font lists a code point with its rows of pixels. -/
def Lists
    (data : Json)
    (codepoint : Int)
    (rows : List Json) : Prop :=
  ∃ fields,
    .dict fields ∈ data.items ∧
      (getField fields "codepoint").asInt = some codepoint ∧
      getField fields "pixels" = .list rows

/- No code point is listed twice. -/
def ListedOnce
    (data : Json) : Prop :=
  (data.items.filterMap recordCodepoint).Nodup

/- Whether a pixel of a row is one. -/
def rowPixel
    (row : List Json)
    (x : Nat) : Bool :=
  (row.getD x .null).asPixel == some true

/- Whether a pixel of the listed rows is one. -/
def setPixel
    (rows : List Json)
    (x y : Nat) : Bool :=
  rowPixel (rows.getD y .null).items x

theorem ok_of_bind
    {α β : Type}
    {first : Except String α}
    {next : α → Except String β}
    {result : β}
    (hOk : first >>= next = .ok result) :
    ∃ value, first = .ok value ∧ next value = .ok result := by
  cases first with
  | error message => cases hOk
  | ok value => exact ⟨value, rfl, hOk⟩

section

variable {repr : Json → String} {first last : Int}

/- The code points of the selected records, in order. -/
theorem selectLoop_codepoints
    {characters : List Json}
    {selected : List Character}
    (hSelect :
      selectLoop repr first last characters = .ok selected) :
    selected.map Character.codepoint =
      (characters.filterMap recordCodepoint).filter
        fun codepoint =>
          decide (first ≤ codepoint ∧ codepoint ≤ last) := by
  induction characters generalizing selected with
  | nil =>
      cases hSelect
      rfl
  | cons character characters ih =>
      cases character with
      | dict fields =>
          unfold selectLoop at hSelect
          rw [List.filterMap_cons, recordCodepoint]
          split at hSelect
          · rename_i hNone
            rw [hNone]
            exact ih hSelect
          · rename_i codepoint hCodepoint
            rw [hCodepoint]
            dsimp only at hSelect ⊢
            rw [List.filter_cons]
            split at hSelect
            · rename_i hRange
              split at hSelect
              · obtain ⟨rest, hRest, hResult⟩ :=
                  ok_of_bind hSelect
                cases hResult
                rw [List.map_cons, ih hRest,
                  if_pos (decide_eq_true hRange)]
              · cases hSelect
            · rename_i hRange
              rw [ih hSelect,
                if_neg (by rwa [decide_eq_true_eq])]
      | _ => cases hSelect

/- A listed code point of the range is selected. -/
theorem selectLoop_mem
    {characters : List Json}
    {selected : List Character}
    (hSelect :
      selectLoop repr first last characters = .ok selected)
    {codepoint : Int}
    {rows : List Json}
    (hLists : Lists (.list characters) codepoint rows)
    (hFirst : first ≤ codepoint)
    (hLast : codepoint ≤ last) :
    ∃ character ∈ selected,
      character.codepoint = codepoint ∧
        character.pixels = rows := by
  rcases hLists with ⟨fields, hMem, hCodepoint, hPixels⟩
  induction characters generalizing selected with
  | nil => cases hMem
  | cons character characters ih =>
      rcases List.mem_cons.mp hMem with rfl | hLater
      · unfold selectLoop at hSelect
        rw [hCodepoint] at hSelect
        dsimp only at hSelect
        rw [if_pos ⟨hFirst, hLast⟩, hPixels] at hSelect
        obtain ⟨rest, -, hResult⟩ := ok_of_bind hSelect
        cases hResult
        exact ⟨_, List.mem_cons_self, rfl, rfl⟩
      · replace hMem :
            .dict fields ∈ (Json.list characters).items :=
          hLater
        cases character with
        | dict other =>
            unfold selectLoop at hSelect
            split at hSelect
            · exact ih hSelect hMem
            · dsimp only at hSelect
              split at hSelect
              · split at hSelect
                · obtain ⟨rest, hRest, hResult⟩ :=
                    ok_of_bind hSelect
                  cases hResult
                  obtain ⟨found, hFound, hSame⟩ :=
                    ih hRest hMem
                  exact ⟨found, List.mem_cons_of_mem _ hFound,
                    hSame⟩
                · cases hSelect
              · exact ih hSelect hMem
        | _ => cases hSelect

/- The width is at least that of every row. -/
theorem widestRow_spec
    {shown : String}
    {rows : List Json}
    {before fontWidth : Nat}
    (hWidest : widestRow shown rows before = .ok fontWidth) :
    before ≤ fontWidth ∧
      ∀ row ∈ rows, row.items.length ≤ fontWidth := by
  induction rows generalizing before with
  | nil =>
      cases hWidest
      exact ⟨Nat.le_refl _, fun row hRow => nomatch hRow⟩
  | cons row rows ih =>
      cases row with
      | list items =>
          obtain ⟨hGrows, hRows⟩ := ih hWidest
          rw [Nat.max_le] at hGrows
          refine ⟨hGrows.1, fun other hOther => ?_⟩
          rcases List.mem_cons.mp hOther with rfl | hOther
          · exact hGrows.2
          · exact hRows other hOther
      | _ => cases hWidest

theorem dimensionsLoop_spec
    {selected : List Character}
    {width height fontWidth fontHeight : Nat}
    (hLoop :
      dimensionsLoop selected width height =
        .ok (fontWidth, fontHeight)) :
    (width ≤ fontWidth ∧ height ≤ fontHeight) ∧
      ∀ character ∈ selected,
        character.pixels.length ≤ fontHeight ∧
          ∀ row ∈ character.pixels,
            row.items.length ≤ fontWidth := by
  induction selected generalizing width height with
  | nil =>
      cases hLoop
      exact ⟨⟨Nat.le_refl _, Nat.le_refl _⟩,
        fun character hCharacter => nomatch hCharacter⟩
  | cons character selected ih =>
      obtain ⟨wider, hWidest, hRest⟩ := ok_of_bind hLoop
      obtain ⟨hGrows, hRows⟩ := widestRow_spec hWidest
      obtain ⟨⟨hWider, hHigher⟩, hOthers⟩ := ih hRest
      rw [Nat.max_le] at hHigher
      refine ⟨⟨hGrows.trans hWider, hHigher.1⟩,
        fun other hOther => ?_⟩
      rcases List.mem_cons.mp hOther with rfl | hOther
      · exact ⟨hHigher.2, fun row hRow =>
          (hRows row hRow).trans hWider⟩
      · exact hOthers other hOther

/- What the dimensions of an accepted font say. -/
theorem inferDimensions_spec
    {selected : List Character}
    {fontWidth fontHeight : Nat}
    (hInfer :
      inferDimensions selected = .ok (fontWidth, fontHeight)) :
    fontWidth ≤ 8 ∧
      ∀ character ∈ selected,
        character.pixels.length ≤ fontHeight ∧
          ∀ row ∈ character.pixels,
            row.items.length ≤ fontWidth := by
  unfold inferDimensions at hInfer
  obtain ⟨⟨width, height⟩, hLoop, hChecks⟩ :=
    ok_of_bind hInfer
  dsimp only at hChecks
  split at hChecks
  · cases hChecks
  · split at hChecks
    · cases hChecks
    · rename_i hNarrow
      cases hChecks
      exact ⟨Nat.le_of_not_lt hNarrow,
        (dimensionsLoop_spec hLoop).2⟩

end

end Fontgen

end Whirliscope

------------------------------------------------------------
-- Packed Rows
------------------------------------------------------------

namespace Whirliscope

namespace Fontgen

open ByteMemory (wrap_of_lt)
open Framebuffer (Font glyphBit)

section

variable {repr : Json → String} {shown : String}

/-
  The bits of a packed row, from the pixel at `index` on: the
  leftmost pixel is the highest bit.
-/
theorem packPixels_testBit
    {fontWidth index value result : Nat}
    {row : List Json}
    (hPack :
      packPixels repr shown fontWidth row index value =
        .ok result)
    (hFits : index + row.length ≤ fontWidth)
    {x : Nat}
    (hX : x < fontWidth) :
    result.testBit (fontWidth - 1 - x) =
      (value.testBit (fontWidth - 1 - x) ||
        (decide (index ≤ x) && rowPixel row (x - index))) := by
  induction row generalizing index value with
  | nil =>
      cases hPack
      have hNone : rowPixel [] (x - index) = false := rfl
      rw [hNone, Bool.and_false, Bool.or_false]
  | cons pixel row ih =>
      rw [List.length_cons] at hFits
      have hHead :
          x = index →
            rowPixel (pixel :: row) (x - index) =
              (pixel.asPixel == some true) := by
        rintro rfl
        rw [Nat.sub_self]
        rfl
      have hTail :
          index < x →
            rowPixel (pixel :: row) (x - index) =
              rowPixel row (x - (index + 1)) := by
        intro hLater
        have hStep : x - index = x - (index + 1) + 1 := by
          omega
        rw [hStep]
        rfl
      have hBit :
          (1 <<< (fontWidth - 1 - index)).testBit
              (fontWidth - 1 - x) =
            decide (x = index) := by
        rw [Nat.one_shiftLeft, Nat.testBit_two_pow]
        apply decide_eq_decide.mpr
        omega
      unfold packPixels at hPack
      split at hPack
      · cases hPack
      · rename_i hSet
        rw [ih hPack (by omega), Nat.testBit_or, hBit]
        rcases Nat.lt_trichotomy x index with
          hBefore | hHere | hAfter
        · grind
        · grind
        · grind
      · rename_i hClear
        rw [ih hPack (by omega)]
        rcases Nat.lt_trichotomy x index with
          hBefore | hHere | hAfter
        · grind
        · grind
        · grind

/- A packed row has no bit above the width. -/
theorem packPixels_lt
    {fontWidth index value result : Nat}
    {row : List Json}
    (hPack :
      packPixels repr shown fontWidth row index value =
        .ok result)
    (hFits : index + row.length ≤ fontWidth)
    (hValue : value < 2 ^ fontWidth) :
    result < 2 ^ fontWidth := by
  induction row generalizing index value with
  | nil =>
      cases hPack
      exact hValue
  | cons pixel row ih =>
      rw [List.length_cons] at hFits
      unfold packPixels at hPack
      split at hPack
      · cases hPack
      · apply ih hPack (by omega)
        apply Nat.or_lt_two_pow hValue
        rw [Nat.one_shiftLeft]
        exact Nat.pow_lt_pow_right (by decide) (by omega)
      · exact ih hPack (by omega) hValue

/- The byte of a row shows its pixels, and none after them. -/
theorem glyphRowToByte_spec
    {fontWidth result : Nat}
    {row : List Json}
    (hByte :
      glyphRowToByte repr row fontWidth shown = .ok result) :
    result < 2 ^ fontWidth ∧
      ∀ x, x < fontWidth →
        result.testBit (fontWidth - 1 - x) =
          rowPixel row x := by
  unfold glyphRowToByte at hByte
  split at hByte
  · cases hByte
  · rename_i hShort
    have hFits : 0 + row.length ≤ fontWidth := by omega
    refine ⟨packPixels_lt hByte hFits (Nat.two_pow_pos _),
      fun x hX => ?_⟩
    rw [packPixels_testBit hByte hFits hX, Nat.zero_testBit,
      Bool.false_or, Nat.sub_zero,
      decide_eq_true (Nat.zero_le x), Bool.true_and]

/- The mask of a column of the console selects its bit. -/
theorem glyphBit_ofNat
    {font : Font}
    {value x : Nat}
    (hWidth : font.width ≤ 8)
    (hValue : value < 2 ^ font.width)
    (hX : x < font.width) :
    glyphBit font (UInt8.ofNat value) x =
      value.testBit (font.width - 1 - x) := by
  have hByte : value < 256 :=
    Nat.lt_of_lt_of_le hValue
      (Nat.pow_le_pow_right (by decide) hWidth)
  have hMask : 2 ^ (font.width - 1 - x) < 2 ^ 8 :=
    Nat.pow_lt_pow_right (by decide) (by omega)
  unfold glyphBit
  rw [UInt8.toNat_ofNat', Nat.mod_eq_of_lt hByte,
    Nat.one_shiftLeft, wrap_of_lt hMask, Nat.and_two_pow]
  cases value.testBit (font.width - 1 - x) <;> simp

end

end Fontgen

end Whirliscope

------------------------------------------------------------
-- The Packed Glyphs
------------------------------------------------------------

namespace Whirliscope

namespace Fontgen

open ByteMemory (wrap_of_lt)
open Framebuffer (Font)

/- Table rows that hold the listed pixels, and no others. -/
structure Packed
    (fontWidth : Nat)
    (pixels : List Json)
    (rows : List Nat) : Prop where
  lt : ∀ y, rows.getD y 0 < 2 ^ fontWidth
  bit :
    ∀ x y, x < fontWidth →
      (rows.getD y 0).testBit (fontWidth - 1 - x) =
        setPixel pixels x y

section

variable {repr : Json → String} {shown : String}
variable {fontWidth fontHeight : Nat}

theorem rowPixel_lt
    {row : List Json}
    {x : Nat}
    (hPixel : rowPixel row x = true) :
    x < row.length := by
  by_contra hBeyond
  unfold rowPixel at hPixel
  rw [List.getD_eq_default _ _ (Nat.le_of_not_lt hBeyond)]
    at hPixel
  cases hPixel

/- A set pixel is in a listed row. -/
theorem setPixel_inside
    {rows : List Json}
    {x y : Nat}
    (hPixel : setPixel rows x y = true) :
    ∃ row ∈ rows, y < rows.length ∧ x < row.items.length := by
  have hX := rowPixel_lt hPixel
  by_cases hY : y < rows.length
  · rw [List.getD_eq_getElem _ _ hY] at hX
    exact ⟨rows[y], List.getElem_mem hY, hY, hX⟩
  · rw [List.getD_eq_default _ _ (Nat.le_of_not_lt hY)] at hX
    cases hX

theorem packed_of_mapM
    {pixels : List Json}
    {rows : List Nat}
    (hRows :
      pixels.mapM
          (fun row =>
            glyphRowToByte repr row.items fontWidth shown) =
        .ok rows) :
    Packed fontWidth pixels rows := by
  induction pixels generalizing rows with
  | nil =>
      rw [List.mapM_nil] at hRows
      cases hRows
      exact
        { lt := fun y => Nat.two_pow_pos _
          bit := fun x y _ => Nat.zero_testBit _ }
  | cons row pixels ih =>
      rw [List.mapM_cons] at hRows
      obtain ⟨value, hByte, hRest⟩ := ok_of_bind hRows
      obtain ⟨values, hValues, hResult⟩ := ok_of_bind hRest
      cases hResult
      obtain ⟨hLess, hBits⟩ := glyphRowToByte_spec hByte
      have hLater := ih hValues
      refine ⟨fun y => ?_, fun x y hX => ?_⟩
      · cases y with
        | zero => exact hLess
        | succ y => exact hLater.lt y
      · cases y with
        | zero => exact hBits x hX
        | succ y => exact hLater.bit x y hX

/- Padding below shows no pixel. -/
theorem Packed.pad
    {pixels : List Json}
    {rows : List Nat}
    (hPacked : Packed fontWidth pixels rows)
    (count : Nat) :
    Packed fontWidth pixels
      (rows ++ List.replicate count 0) := by
  have hSame :
      ∀ y,
        (rows ++ List.replicate count 0).getD y 0 =
          rows.getD y 0 := by
    intro y
    rcases Nat.lt_or_ge y rows.length with hInside | hBelow
    · rw [List.getD_append _ _ _ _ hInside]
    · rw [List.getD_append_right _ _ _ _ hBelow,
        List.getD_eq_default _ _ hBelow]
      simp
  exact
    { lt := fun y => by
        rw [hSame]
        exact hPacked.lt y
      bit := fun x y hX => by
        rw [hSame]
        exact hPacked.bit x y hX }

/- The code points that are not packed keep their rows. -/
theorem packGlyphs_of_not_mem
    {selected : List Character}
    {before glyphs : Glyphs}
    (hPack :
      packGlyphs repr fontWidth fontHeight selected before =
        .ok glyphs)
    {codepoint : Int}
    (hOther : codepoint ∉ selected.map Character.codepoint) :
    glyphs codepoint = before codepoint := by
  induction selected generalizing before with
  | nil =>
      cases hPack
      rfl
  | cons character selected ih =>
      obtain ⟨rows, -, hRest⟩ := ok_of_bind hPack
      rw [List.map_cons, List.mem_cons, not_or] at hOther
      rw [ih hRest hOther.2,
        Function.update_of_ne hOther.1]

/- Every selected code point has its pixels in the table. -/
theorem packGlyphs_spec
    {selected : List Character}
    {before glyphs : Glyphs}
    (hPack :
      packGlyphs repr fontWidth fontHeight selected before =
        .ok glyphs)
    (hOnce : (selected.map Character.codepoint).Nodup)
    {character : Character}
    (hMem : character ∈ selected) :
    ∃ rows,
      glyphs character.codepoint = some rows ∧
        Packed fontWidth character.pixels rows := by
  induction selected generalizing before with
  | nil => cases hMem
  | cons other selected ih =>
      obtain ⟨rows, hRows, hRest⟩ := ok_of_bind hPack
      rw [List.map_cons, List.nodup_cons] at hOnce
      rcases List.mem_cons.mp hMem with rfl | hLater
      · have hPacked :=
          (packed_of_mapM hRows).pad (fontHeight - rows.length)
        refine ⟨_, ?_, hPacked⟩
        rw [packGlyphs_of_not_mem hRest hOnce.1,
          Function.update_self]
      · exact ih hRest hOnce.2 hLater

end

end Fontgen

end Whirliscope

------------------------------------------------------------
-- Drawing a Listed Glyph
------------------------------------------------------------

namespace Whirliscope

namespace Fontgen

open ByteMemory (Bytes Raster)
open Framebuffer

/- A place of a cell in the square of a listed pixel. -/
def ListedSquare
    (rows : List Json)
    (x y : Nat) : Prop :=
  ∃ pixelX pixelY,
    setPixel rows pixelX pixelY = true ∧
      (1 + 2 * pixelX ≤ x ∧ x < 1 + 2 * pixelX + 2) ∧
      1 + 2 * pixelY ≤ y ∧ y < 1 + 2 * pixelY + 2

/-
  A cell that shows the listed pixels: their squares have
  the foreground colour, the rest of the cell has the
  background colour, and no other pixel has changed.
-/
structure ShowsListed
    (font : Font)
    (R : Raster)
    (rows : List Json)
    (cell : FramebufferCell)
    (col row : Nat)
    (before after : Bytes) : Prop where
  fits :
    ∀ x y, ListedSquare rows x y →
      x < font.cellWidth ∧ y < font.cellHeight
  set :
    ∀ x y, ListedSquare rows x y →
      R.pixel after (col * font.cellWidth + x)
          (row * font.cellHeight + y) =
        cell.fg
  clear :
    ∀ x y, x < font.cellWidth → y < font.cellHeight →
      ¬ ListedSquare rows x y →
        R.pixel after (col * font.cellWidth + x)
            (row * font.cellHeight + y) =
          cell.bg
  outside :
    ∀ x y, x < R.width → ¬ InCell font col row x y →
      R.pixel after x y = R.pixel before x y

/- The table entry of a listed code point. -/
structure Holds
    (font : Font)
    (rows : List Json)
    (glyph : Nat → UInt8) : Prop where
  inside :
    ∀ x y, setPixel rows x y = true →
      x < font.width ∧ y < font.height
  bit :
    ∀ x y, x < font.width →
      glyphBit font (glyph y) x = setPixel rows x y

section

variable {repr : Json → String} {data : Json}
variable {first last : Int} {font : Font}

/- An accepted font has a table entry for what it lists. -/
theorem fontgen_holds
    (hAccepted : fontgen repr data first last = .ok font)
    (hOnce : ListedOnce data)
    {codepoint : Int}
    {rows : List Json}
    (hLists : Lists data codepoint rows)
    (hFirst : first ≤ codepoint)
    (hLast : codepoint ≤ last) :
    0 ≤ first ∧ font.first = first.toNat ∧
      font.last = last.toNat ∧
      Holds font rows
        (font.rows (codepoint - first).toNat) := by
  unfold fontgen at hAccepted
  split at hAccepted
  · cases hAccepted
  · obtain ⟨characters, hLoad, hAccepted⟩ :=
      ok_of_bind hAccepted
    obtain ⟨selected, hSelected, hAccepted⟩ :=
      ok_of_bind hAccepted
    obtain ⟨⟨fontWidth, fontHeight⟩, hInfer, hAccepted⟩ :=
      ok_of_bind hAccepted
    obtain ⟨glyphs, hBuild, hHeader⟩ := ok_of_bind hAccepted
    obtain rfl : data = .list characters := by
      cases data with
      | list items =>
          cases hLoad
          rfl
      | _ => cases hLoad
    have hSelect :
        selectLoop repr first last characters =
          .ok selected := by
      obtain ⟨found, hFound, hSome⟩ := ok_of_bind hSelected
      split at hSome
      · cases hSome
      · cases hSome
        exact hFound
    obtain ⟨packed, hPack, hGlyphs⟩ := ok_of_bind hBuild
    cases hGlyphs
    unfold writeHeader at hHeader
    split at hHeader
    · cases hHeader
    · rename_i hRange
      cases hHeader
      obtain ⟨character, hMem, rfl, rfl⟩ :=
        selectLoop_mem hSelect hLists hFirst hLast
      have hDistinct :
          (selected.map Character.codepoint).Nodup := by
        rw [selectLoop_codepoints hSelect]
        exact hOnce.filter _
      obtain ⟨table, hTable, hPacked⟩ :=
        packGlyphs_spec hPack hDistinct hMem
      obtain ⟨hNarrow, hSizes⟩ := inferDimensions_spec hInfer
      obtain ⟨hHeight, hWidths⟩ := hSizes character hMem
      have hIndex :
          first + ((character.codepoint - first).toNat : Int) =
            character.codepoint := by
        omega
      refine ⟨by omega, rfl, rfl, ?_, ?_⟩
      · intro x y hPixel
        obtain ⟨row, hRow, hY, hX⟩ := setPixel_inside hPixel
        exact ⟨hX.trans_le (hWidths row hRow),
          hY.trans_le hHeight⟩
      · intro x y hX
        dsimp only at hX ⊢
        rw [hIndex, hTable, Option.getD_some,
          glyphBit_ofNat hNarrow (hPacked.lt y) hX]
        exact hPacked.bit x y hX

/- The console finds a glyph that has a pixel. -/
theorem glyphFor_of_holds
    {ch : UInt8}
    {rows : List Json}
    (hHolds :
      Holds font rows (font.rows (ch.toNat - font.first)))
    (hFirst : font.first ≤ ch.toNat)
    (hLast : ch.toNat ≤ font.last)
    (hSet : ∃ x y, setPixel rows x y = true) :
    glyphFor font ch = font.rows (ch.toNat - font.first) := by
  obtain ⟨x, y, hPixel⟩ := hSet
  obtain ⟨hX, hY⟩ := hHolds.inside x y hPixel
  have hSome :
      glyphIsEmpty font
          (font.rows (ch.toNat - font.first)) =
        false := by
    apply Bool.eq_false_iff.mpr
    intro hEmpty
    unfold glyphIsEmpty at hEmpty
    rw [List.all_eq_true] at hEmpty
    have hZero := hEmpty y (List.mem_range.mpr hY)
    have hBit := hHolds.bit x y hX
    rw [beq_iff_eq.mp hZero, hPixel] at hBit
    unfold glyphBit at hBit
    simp at hBit
  unfold glyphFor
  dsimp only
  rw [hSome, if_neg]
  simp only [Bool.or_false, Bool.or_eq_true,
    decide_eq_true_eq]
  omega

/- The drawn pixels of a cell are the listed squares. -/
theorem glyphPixel_iff
    {cell : FramebufferCell}
    {rows : List Json}
    (hHolds : Holds font rows (glyphFor font cell.ch))
    (hSpace : cell.ch ≠ 32)
    (x y : Nat) :
    GlyphPixel font cell x y ↔ ListedSquare rows x y := by
  unfold GlyphPixel ListedSquare fontScale
  constructor
  · rintro ⟨-, pixelX, hX, pixelY, -, hBit, hPlace⟩
    rw [hHolds.bit pixelX pixelY hX] at hBit
    exact ⟨pixelX, pixelY, hBit, by omega⟩
  · rintro ⟨pixelX, pixelY, hPixel, hPlace⟩
    obtain ⟨hX, hY⟩ := hHolds.inside pixelX pixelY hPixel
    refine ⟨hSpace, pixelX, hX, pixelY, hY, ?_, by omega⟩
    rw [hHolds.bit pixelX pixelY hX]
    exact hPixel

/- A place of a cell, from the corner of the raster. -/
theorem inCell_add
    {col row x y : Nat}
    (hX : x < font.cellWidth)
    (hY : y < font.cellHeight) :
    InCell font col row (col * font.cellWidth + x)
      (row * font.cellHeight + y) :=
  inCell_iff.mpr (by omega)

/-
  A listed character with a pixel is drawn as the font lists
  it, wherever the rows of the framebuffer start.
-/
theorem listed_glyph_drawn
    (hAccepted : fontgen repr data first last = .ok font)
    (hOnce : ListedOnce data)
    {cell : FramebufferCell}
    (hCell : cell.Sound)
    {rows : List Json}
    (hLists : Lists data cell.ch.toNat rows)
    (hFirst : first ≤ cell.ch.toNat)
    (hLast : cell.ch.toNat ≤ last)
    (hSpace : cell.ch ≠ 32)
    (hSet : ∃ x y, setPixel rows x y = true)
    {L : Layout font}
    {console : Console}
    (hOn : console.On L)
    {col row : Nat}
    (hCol : col < L.cols)
    (hRow : row < L.rows)
    (memory : Bytes) :
    ShowsListed font L.raster rows cell col row memory
      (drawCellAt font console col row cell memory) := by
  obtain ⟨hStart, hFontFirst, hFontLast, hEntry⟩ :=
    fontgen_holds hAccepted hOnce hLists hFirst hLast
  have hIndex :
      ((cell.ch.toNat : Int) - first).toNat =
        cell.ch.toNat - font.first := by
    omega
  rw [hIndex] at hEntry
  have hGlyph :=
    glyphFor_of_holds hEntry (by omega) (by omega) hSet
  have hHolds : Holds font rows (glyphFor font cell.ch) := by
    rw [hGlyph]
    exact hEntry
  have hPixels := glyphPixel_iff hHolds hSpace
  have hFits :
      ∀ x y, ListedSquare rows x y →
        x < font.cellWidth ∧ y < font.cellHeight := by
    rintro x y ⟨pixelX, pixelY, hPixel, hPlace⟩
    obtain ⟨hX, hY⟩ := hHolds.inside pixelX pixelY hPixel
    rw [cellWidth_eq, cellHeight_eq]
    unfold fontScale
    omega
  obtain ⟨hWide, -⟩ := L.cell_inside hCol hRow
  have hPaints := paints_drawCellAt hOn hCol hRow hCell
  have hInside :
      ∀ x y, x < font.cellWidth → y < font.cellHeight →
        L.raster.pixel
            (drawCellAt font console col row cell memory)
            (col * font.cellWidth + x)
            (row * font.cellHeight + y) =
          cellPixel font cell x y := by
    intro x y hX hY
    rw [hPaints.inside memory _ _ (by omega)
        (inCell_add hX hY),
      Nat.mul_add_mod', Nat.mul_add_mod',
      Nat.mod_eq_of_lt hX, Nat.mod_eq_of_lt hY]
  refine
    { fits := hFits
      set := ?_
      clear := ?_
      outside := fun x y hX hOut =>
        hPaints.outside memory x y hX hOut }
  · intro x y hSquare
    obtain ⟨hX, hY⟩ := hFits x y hSquare
    rw [hInside x y hX hY,
      cellPixel_of_glyph ((hPixels x y).mpr hSquare)]
  · intro x y hX hY hSquare
    rw [hInside x y hX hY]
    exact cellPixel_of_not_glyph fun hPixel =>
      hSquare ((hPixels x y).mp hPixel)

end

/- A letter with a short row and a missing row. -/
def letterPixels : List Json :=
  [.list [.int 0, .int 1], .list [.int 1]]

def letterData : Json :=
  .list
    [.dict
        [("codepoint", .int 65), ("pixels", .list letterPixels)],
      .dict
        [("codepoint", .int 66),
          ("pixels",
            .list [.list [], .list [], .list [.int 0]])]]

def letterFont : Font :=
  match fontgen (fun _ => "") letterData 65 66 with
  | .ok font => font
  | .error _ => ⟨0, 0, 0, 0, fun _ _ => 0⟩

/- Rows that start away from a multiple of eight. -/
def letterLayout : Layout letterFont where
  raster :=
    { base := 4
      pitch := 28
      width := 6
      height := 8
      fits := by decide }
  cols := 1
  rows := 1
  colsPos := by decide
  rowsPos := by decide
  colsSmall := by decide
  rowsSmall := by decide
  wide := by decide
  high := by decide
  addressable := by decide

def letterConsole : Console :=
  { blankConsole with
    base := 4
    pitch := 28
    width := 6
    height := 8
    cols := 1
    rows := 1 }

def letterCell : FramebufferCell where
  ch := 65
  fg := 7
  bg := 1

theorem letterData_drawn :
    ShowsListed letterFont letterLayout.raster letterPixels
      letterCell 0 0 (fun _ => 0)
      (drawCellAt letterFont letterConsole 0 0 letterCell
        fun _ => 0) := by
  have hAccepted :
      fontgen (fun _ => "") letterData 65 66 =
        .ok letterFont :=
    rfl
  have hOnce : ListedOnce letterData := by
    unfold ListedOnce
    decide
  have hCell : letterCell.Sound :=
    ⟨by decide, by decide⟩
  have hOn : letterConsole.On letterLayout :=
    ⟨rfl, rfl, rfl, rfl, rfl, rfl⟩
  exact
    listed_glyph_drawn hAccepted hOnce hCell
      ⟨_, List.mem_cons_self, rfl, rfl⟩ (by decide)
      (by decide) (by decide) ⟨1, 0, rfl⟩ hOn (by decide)
      (by decide) _

end Fontgen

end Whirliscope
