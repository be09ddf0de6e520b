import Mathlib.Data.Finset.Card
import Mathlib.Logic.Function.Basic

/-
  Places that can be taken and given back, and how many of
  them are vacant.

  Main declarations:
    * `vacant`
    * `card_vacant_take`, `card_vacant_give`
    * `vacant_update_of_not_mem`
-/

------------------------------------------------------------
-- Vacant Places
------------------------------------------------------------

namespace Vacancy

variable {ι : Type} [DecidableEq ι]
variable {places : Finset ι} {taken : ι → Bool} {place : ι}

/- The places that are not taken. -/
def vacant
    (places : Finset ι)
    (taken : ι → Bool) : Finset ι :=
  places.filter fun place => taken place = false

@[simp] theorem mem_vacant :
    place ∈ vacant places taken ↔
      place ∈ places ∧ taken place = false :=
  Finset.mem_filter

theorem card_vacant_le :
    (vacant places taken).card ≤ places.card :=
  Finset.card_filter_le _ _

theorem vacant_take :
    vacant places (Function.update taken place true) =
      (vacant places taken).erase place := by
  ext other
  by_cases hSame : other = place
  · simp [hSame]
  · simp [hSame]

theorem vacant_give
    (hPlace : place ∈ places) :
    vacant places (Function.update taken place false) =
      insert place (vacant places taken) := by
  ext other
  by_cases hSame : other = place
  · simp [hSame, hPlace]
  · simp [hSame]

/- Taking a vacant place leaves one vacant place less. -/
theorem card_vacant_take
    (hPlace : place ∈ places)
    (hFree : taken place = false) :
    (vacant places (Function.update taken place true)).card =
      (vacant places taken).card - 1 := by
  rw [vacant_take]
  exact Finset.card_erase_of_mem
    (mem_vacant.mpr ⟨hPlace, hFree⟩)

theorem card_vacant_pos
    (hPlace : place ∈ places)
    (hFree : taken place = false) :
    0 < (vacant places taken).card :=
  Finset.card_pos.mpr
    ⟨place, mem_vacant.mpr ⟨hPlace, hFree⟩⟩

/- Giving a place back leaves one vacant place more. -/
theorem card_vacant_give
    (hPlace : place ∈ places)
    (hTaken : taken place = true) :
    (vacant places (Function.update taken place false)).card =
      (vacant places taken).card + 1 := by
  rw [vacant_give hPlace]
  apply Finset.card_insert_of_notMem
  simp [hTaken]

theorem vacant_update_of_not_mem
    (hPlace : place ∉ places)
    (value : Bool) :
    vacant places (Function.update taken place value) =
      vacant places taken := by
  apply Finset.filter_congr
  intro other hOther
  have hNe : other ≠ place := by
    rintro rfl
    exact hPlace hOther
  rw [Function.update_of_ne hNe]

end Vacancy
