import Whirliscope.Library.ByteMemory

/-
  Pictures of 32-bit pixels in a byte memory.

  A raster says where the pixels of a picture are. Drawing is
  described by the pixels that it paints: inside its region
  it fixes the colours, and it leaves the others alone.

  Main declarations:
    * `Raster`, `Raster.pixel`
    * `Paints`
    * `Paints.foldl`, `Paints.followedBy`
    * `pixel_copyRows`
-/

------------------------------------------------------------
-- Rasters
------------------------------------------------------------

namespace ByteMemory

/- Rows of 4-byte pixels, `pitch` bytes from row to row. -/
structure Raster where
  base : Nat
  pitch : Nat
  width : Nat
  height : Nat
  fits : 4 * width ≤ pitch

namespace Raster

variable {R : Raster} {memory source : Bytes}

/- The address of a pixel. -/
def address
    (R : Raster)
    (x y : Nat) : Nat :=
  R.base + y * R.pitch + 4 * x

/- The colour of a pixel. -/
def pixel
    (R : Raster)
    (memory : Bytes)
    (x y : Nat) : Nat :=
  getLE memory (R.address x y) 4

/- The pixels of a row end before a later row. -/
theorem address_le
    {x y later : Nat}
    (hX : x ≤ R.width)
    (hLater : y < later) :
    R.address x y ≤ R.base + later * R.pitch := by
  have hFits := R.fits
  have hRows : (y + 1) * R.pitch ≤ later * R.pitch :=
    Nat.mul_le_mul_right _ hLater
  rw [Nat.add_mul, Nat.one_mul] at hRows
  unfold address
  omega

/- The pixels after a store into a part of a row. -/
theorem pixel_write_inside
    {x y count px : Nat}
    (hLeft : x ≤ px)
    (hRight : px < x + count) :
    R.pixel (write memory (R.address x y) (4 * count) source)
        px y =
      getLE source (4 * (px - x)) 4 := by
  have hField :
      R.address px y - R.address x y = 4 * (px - x) := by
    unfold address
    omega
  unfold pixel
  rw [getLE_write_of_subset, hField]
  · unfold address
    omega
  · unfold address
    omega

theorem pixel_write_outside
    {x y count px py : Nat}
    (hInside : x + count ≤ R.width)
    (hPixel : px < R.width)
    (hOutside : py = y → px < x ∨ x + count ≤ px) :
    R.pixel (write memory (R.address x y) (4 * count) source)
        px py =
      R.pixel memory px py := by
  unfold pixel
  apply getLE_write_of_disjoint
  rcases Nat.lt_trichotomy py y with hAbove | hSame | hBelow
  · have hEnd := R.address_le (show px + 1 ≤ R.width from hPixel)
      hAbove
    left
    unfold address at hEnd ⊢
    omega
  · subst hSame
    have hApart := hOutside rfl
    unfold address
    omega
  · have hEnd := R.address_le hInside hBelow
    right
    unfold address at hEnd ⊢
    omega

end Raster

end ByteMemory

------------------------------------------------------------
-- Painting
------------------------------------------------------------

namespace ByteMemory

/-
  Painting gives the pixels of a region their colours and
  leaves the other pixels alone.
-/
structure Paints
    (R : Raster)
    (paint : Bytes → Bytes)
    (region : Nat → Nat → Prop)
    (colour : Nat → Nat → Nat) : Prop where
  inside :
    ∀ memory x y, x < R.width → region x y →
      R.pixel (paint memory) x y = colour x y
  outside :
    ∀ memory x y, x < R.width → ¬ region x y →
      R.pixel (paint memory) x y = R.pixel memory x y

namespace Paints

variable {R : Raster} {paint : Bytes → Bytes}
variable {region : Nat → Nat → Prop}
variable {colour : Nat → Nat → Nat}

theorem congr
    {region' : Nat → Nat → Prop}
    {colour' : Nat → Nat → Nat}
    (hPaints : Paints R paint region colour)
    (hRegion :
      ∀ x y, x < R.width → (region' x y ↔ region x y))
    (hColour :
      ∀ x y, region x y → colour' x y = colour x y) :
    Paints R paint region' colour' where
  inside := by
    intro memory x y hX hInside
    have hRegion := (hRegion x y hX).mp hInside
    rw [hPaints.inside memory x y hX hRegion,
      hColour x y hRegion]
  outside := by
    intro memory x y hX hOutside
    exact hPaints.outside memory x y hX fun hRegion' =>
      hOutside ((hRegion x y hX).mpr hRegion')

/- Nothing is painted. -/
theorem none
    (colour : Nat → Nat → Nat) :
    Paints R (fun memory => memory) (fun _ _ => False)
      colour where
  inside := fun _ _ _ _ hFalse => hFalse.elim
  outside := fun _ _ _ _ _ => rfl

/- The second painting covers the first. -/
theorem followedBy
    {second : Bytes → Bytes}
    {cover : Nat → Nat → Prop}
    {shade result : Nat → Nat → Nat}
    (hFirst : Paints R paint region colour)
    (hSecond : Paints R second cover shade)
    (hCover : ∀ x y, cover x y → result x y = shade x y)
    (hUnder :
      ∀ x y, region x y → ¬ cover x y →
        result x y = colour x y) :
    Paints R (fun memory => second (paint memory))
      (fun x y => region x y ∨ cover x y) result where
  inside := by
    intro memory x y hX hInside
    by_cases hCovered : cover x y
    · rw [hSecond.inside _ x y hX hCovered,
        hCover x y hCovered]
    · have hRegion := hInside.resolve_right hCovered
      rw [hSecond.outside _ x y hX hCovered,
        hFirst.inside memory x y hX hRegion,
        hUnder x y hRegion hCovered]
  outside := by
    intro memory x y hX hOutside
    rw [not_or] at hOutside
    rw [hSecond.outside _ x y hX hOutside.2,
      hFirst.outside memory x y hX hOutside.1]

/- A loop of paintings that agree on the colours. -/
theorem foldl
    {step : Bytes → Nat → Bytes}
    {regions : Nat → Nat → Nat → Prop}
    {count : Nat}
    (hStep :
      ∀ k, k < count →
        Paints R (fun memory => step memory k) (regions k)
          colour) :
    Paints R
      (fun memory => (List.range count).foldl step memory)
      (fun x y => ∃ k, k < count ∧ regions k x y)
      colour := by
  induction count with
  | zero =>
      exact (none colour).congr (by simp) (by simp)
  | succ count ih =>
      have hBefore :=
        ih fun k hk => hStep k (Nat.lt_succ_of_lt hk)
      have hBoth :=
        hBefore.followedBy
          (hStep count (Nat.lt_succ_self count))
          (fun _ _ _ => rfl) (fun _ _ _ _ => rfl)
      simp only [List.range_succ, List.foldl_append,
        List.foldl_cons, List.foldl_nil]
      apply hBoth.congr
      · intro x y _
        constructor
        · rintro ⟨k, hk, hRegion⟩
          rcases Nat.lt_succ_iff_lt_or_eq.mp hk with
            hLess | rfl
          · exact .inl ⟨k, hLess, hRegion⟩
          · exact .inr hRegion
        · rintro (⟨k, hk, hRegion⟩ | hRegion)
          · exact ⟨k, Nat.lt_succ_of_lt hk, hRegion⟩
          · exact ⟨count, Nat.lt_succ_self count, hRegion⟩
      · intro x y _
        rfl

end Paints

/- The four bytes of a colour, over and over. -/
def colourBytes
    (colour : Nat) : Bytes :=
  fun i => bytesLE colour (i % 4)

/- Filling a part of a row with one colour. -/
theorem paints_span
    {R : Raster}
    {x y count colour : Nat}
    (hInside : x + count ≤ R.width)
    (hColour : colour < 2 ^ 32) :
    Paints R
      (fun memory =>
        write memory (R.address x y) (4 * count)
          (colourBytes colour))
      (fun px py => py = y ∧ x ≤ px ∧ px < x + count)
      (fun _ _ => colour) where
  inside := by
    rintro memory px py - ⟨rfl, hLeft, hRight⟩
    rw [Raster.pixel_write_inside hLeft hRight]
    have hBytes :
        getLE (colourBytes colour) (4 * (px - x)) 4 =
          getLE (bytesLE colour) 0 4 := by
      apply getLE_congr
      intro index hIndex
      unfold colourBytes
      congr 1
      omega
    rw [hBytes, getLE_bytesLE, Nat.pow_zero, Nat.div_one]
    exact Nat.mod_eq_of_lt hColour
  outside := by
    intro memory px py hPixel hOutside
    apply Raster.pixel_write_outside hInside hPixel
    intro hRow
    by_contra hIn
    exact hOutside ⟨hRow, by omega, by omega⟩

end ByteMemory

------------------------------------------------------------
-- Moving Rows
------------------------------------------------------------

namespace ByteMemory

/- Copying the start of a row over that of another. -/
theorem pixel_copyRow
    {R : Raster}
    {memory : Bytes}
    {x y dest src count : Nat}
    (hCount : count ≤ R.width)
    (hX : x < R.width) :
    R.pixel
        (write memory (R.address 0 dest) (4 * count)
          (slice memory (R.address 0 src)))
        x y =
      if y = dest ∧ x < count then R.pixel memory x src
      else R.pixel memory x y := by
  split_ifs with hInside
  · rcases hInside with ⟨rfl, hLess⟩
    rw [Raster.pixel_write_inside (Nat.zero_le x) (by omega),
      getLE_slice]
    rfl
  · apply Raster.pixel_write_outside (by omega) hX
    intro hRow
    right
    by_contra hIn
    exact hInside ⟨hRow, by omega⟩

/-
  Copying rows from further down, from the first one on: no
  row is read after it was overwritten.
-/
theorem pixel_copyRows
    {R : Raster}
    {step : Bytes → Nat → Bytes}
    {distance width count : Nat}
    (hStep :
      ∀ k, k < count → ∀ memory x y, x < R.width →
        R.pixel (step memory k) x y =
          if y = k ∧ x < width then
            R.pixel memory x (k + distance)
          else
            R.pixel memory x y)
    (memory : Bytes)
    {x y : Nat}
    (hX : x < R.width) :
    R.pixel ((List.range count).foldl step memory) x y =
      if y < count ∧ x < width then
        R.pixel memory x (y + distance)
      else
        R.pixel memory x y := by
  induction count generalizing y with
  | zero => simp
  | succ count ih =>
      have hBefore :
          ∀ {y},
            R.pixel ((List.range count).foldl step memory)
                x y =
              if y < count ∧ x < width then
                R.pixel memory x (y + distance)
              else
                R.pixel memory x y :=
        ih fun k hk => hStep k (Nat.lt_succ_of_lt hk)
      simp only [List.range_succ, List.foldl_append,
        List.foldl_cons, List.foldl_nil]
      rw [hStep count (Nat.lt_succ_self count) _ x y hX]
      by_cases hRow : y = count ∧ x < width
      · rcases hRow with ⟨rfl, hWidth⟩
        have hBelow : ¬ (y + distance < y ∧ x < width) := by
          omega
        rw [if_pos ⟨rfl, hWidth⟩, hBefore, if_neg hBelow,
          if_pos ⟨Nat.lt_succ_self y, hWidth⟩]
      · have hSame :
            (y < count + 1 ∧ x < width) ↔
              (y < count ∧ x < width) := by
          omega
        rw [if_neg hRow, hBefore]
        simp only [hSame]

end ByteMemory
