import Mathlib.Logic.Function.Basic
import Mathlib.Tactic.Common

/-
  Units of a store that are owned by exactly one reference
  each.

  A reference is either empty or names a unit. References are
  separate when no unit is referenced twice. A store is
  well-owned when the units in use are also all referenced.

  Main declarations:
    * `Separates`, `Owns`
    * `Separates.assign`, `Separates.release`
    * `Owns.assign`, `Owns.release`
-/

------------------------------------------------------------
-- Ownership
------------------------------------------------------------

namespace Ownership

variable {ι β : Type}

/-
  Every reference that is not `empty` has a unit in use to
  itself.
-/
structure Separates
    (IsUnit : β → Prop)
    (empty : β)
    (used : β → Bool)
    (ref : ι → β) : Prop where
  notUnit : ¬ IsUnit empty
  owned : ∀ i, ref i ≠ empty → IsUnit (ref i)
  inUse : ∀ i, ref i ≠ empty → used (ref i) = true
  unique : ∀ i j, ref i ≠ empty → ref i = ref j → i = j

/- Every unit in use has exactly one owner. -/
structure Owns
    (IsUnit : β → Prop)
    (empty : β)
    (used : β → Bool)
    (ref : ι → β) : Prop
    extends Separates IsUnit empty used ref where
  covered :
    ∀ unit, IsUnit unit → used unit = true →
      ∃ i, ref i = unit

namespace Separates

variable {IsUnit : β → Prop} {empty : β}
variable {used : β → Bool} {ref : ι → β}

/- A unit that is not in use has no owner. -/
theorem ne_of_free
    (hSeparates : Separates IsUnit empty used ref)
    {unit : β}
    (hUnit : IsUnit unit)
    (hFree : used unit = false)
    (i : ι) :
    ref i ≠ unit := by
  rintro rfl
  have hSome : ref i ≠ empty := by
    intro hEmpty
    rw [hEmpty] at hUnit
    exact hSeparates.notUnit hUnit
  have hUsed := hSeparates.inUse i hSome
  rw [hFree] at hUsed
  exact Bool.false_ne_true hUsed

/- Ownership depends on the use of units only. -/
theorem congr_used
    (hSeparates : Separates IsUnit empty used ref)
    {used' : β → Bool}
    (hSame :
      ∀ unit, IsUnit unit → used' unit = used unit) :
    Separates IsUnit empty used' ref where
  notUnit := hSeparates.notUnit
  owned := hSeparates.owned
  inUse := by
    intro i hi
    rw [hSame _ (hSeparates.owned i hi)]
    exact hSeparates.inUse i hi
  unique := hSeparates.unique

/- Some of the references may be given up. -/
theorem restrict
    (hSeparates : Separates IsUnit empty used ref)
    {ref' : ι → β}
    (hSame : ∀ i, ref' i ≠ empty → ref' i = ref i) :
    Separates IsUnit empty used ref' where
  notUnit := hSeparates.notUnit
  owned := by
    intro i hi
    have hRef := hSame i hi
    rw [hRef] at hi ⊢
    exact hSeparates.owned i hi
  inUse := by
    intro i hi
    have hRef := hSame i hi
    rw [hRef] at hi ⊢
    exact hSeparates.inUse i hi
  unique := by
    intro i j hi hUnits
    have hj : ref' j ≠ empty := hUnits ▸ hi
    have hRef := hSame i hi
    rw [hRef] at hi
    rw [hRef, hSame j hj] at hUnits
    exact hSeparates.unique i j hi hUnits

variable [DecidableEq ι] [DecidableEq β]

/- An empty reference takes a unit that was not in use. -/
theorem assign
    (hSeparates : Separates IsUnit empty used ref)
    {unit : β}
    (hUnit : IsUnit unit)
    (hFree : used unit = false)
    (i : ι) :
    Separates IsUnit empty (Function.update used unit true)
      (Function.update ref i unit) where
  notUnit := hSeparates.notUnit
  owned := by
    intro j hj
    by_cases hSame : j = i
    · subst hSame
      rw [Function.update_self]
      exact hUnit
    · rw [Function.update_of_ne hSame] at hj ⊢
      exact hSeparates.owned j hj
  inUse := by
    intro j hj
    by_cases hSame : j = i
    · subst hSame
      rw [Function.update_self, Function.update_self]
    · rw [Function.update_of_ne hSame] at hj ⊢
      rw [Function.update_of_ne
        (hSeparates.ne_of_free hUnit hFree j)]
      exact hSeparates.inUse j hj
  unique := by
    intro j k hj hSame
    by_cases hJ : j = i
    · by_cases hK : k = i
      · rw [hJ, hK]
      · rw [hJ, Function.update_self,
          Function.update_of_ne hK] at hSame
        exact absurd hSame.symm
          (hSeparates.ne_of_free hUnit hFree k)
    · rw [Function.update_of_ne hJ] at hj hSame
      by_cases hK : k = i
      · rw [hK, Function.update_self] at hSame
        exact absurd hSame
          (hSeparates.ne_of_free hUnit hFree j)
      · rw [Function.update_of_ne hK] at hSame
        exact hSeparates.unique j k hj hSame

/- A reference gives its unit back. -/
theorem release
    (hSeparates : Separates IsUnit empty used ref)
    (i : ι) :
    Separates IsUnit empty
      (Function.update used (ref i) false)
      (Function.update ref i empty) where
  notUnit := hSeparates.notUnit
  owned := by
    intro j hj
    by_cases hSame : j = i
    · subst hSame
      rw [Function.update_self] at hj
      exact absurd rfl hj
    · rw [Function.update_of_ne hSame] at hj ⊢
      exact hSeparates.owned j hj
  inUse := by
    intro j hj
    by_cases hSame : j = i
    · subst hSame
      rw [Function.update_self] at hj
      exact absurd rfl hj
    · rw [Function.update_of_ne hSame] at hj ⊢
      rw [Function.update_of_ne
        fun hUnits => hSame (hSeparates.unique j i hj hUnits)]
      exact hSeparates.inUse j hj
  unique := by
    intro j k hj hSame
    by_cases hJ : j = i
    · subst hJ
      rw [Function.update_self] at hj
      exact absurd rfl hj
    · rw [Function.update_of_ne hJ] at hj hSame
      by_cases hK : k = i
      · rw [hK, Function.update_self] at hSame
        exact absurd hSame hj
      · rw [Function.update_of_ne hK] at hSame
        exact hSeparates.unique j k hj hSame

end Separates

namespace Owns

variable {IsUnit : β → Prop} {empty : β}
variable {used : β → Bool} {ref : ι → β}
variable [DecidableEq ι] [DecidableEq β]

/- An empty reference takes a unit that was not in use. -/
theorem assign
    (hOwns : Owns IsUnit empty used ref)
    {unit : β}
    (hUnit : IsUnit unit)
    (hFree : used unit = false)
    {i : ι}
    (hEmpty : ref i = empty) :
    Owns IsUnit empty (Function.update used unit true)
      (Function.update ref i unit) where
  toSeparates := hOwns.toSeparates.assign hUnit hFree i
  covered := by
    intro other hOther hUsed
    by_cases hSame : other = unit
    · exact ⟨i, by rw [Function.update_self, hSame]⟩
    · rw [Function.update_of_ne hSame] at hUsed
      rcases hOwns.covered other hOther hUsed with ⟨j, hj⟩
      refine ⟨j, ?_⟩
      rw [Function.update_of_ne, hj]
      -- The empty reference owned nothing before.
      rintro rfl
      rw [hEmpty] at hj
      rw [← hj] at hOther
      exact hOwns.notUnit hOther

/- A reference gives its unit back. -/
theorem release
    (hOwns : Owns IsUnit empty used ref)
    (i : ι) :
    Owns IsUnit empty (Function.update used (ref i) false)
      (Function.update ref i empty) where
  toSeparates := hOwns.toSeparates.release i
  covered := by
    intro other hOther hUsed
    by_cases hSame : other = ref i
    · rw [hSame, Function.update_self] at hUsed
      exact absurd hUsed Bool.false_ne_true
    · rw [Function.update_of_ne hSame] at hUsed
      rcases hOwns.covered other hOther hUsed with ⟨j, hj⟩
      refine ⟨j, ?_⟩
      rw [Function.update_of_ne, hj]
      rintro rfl
      exact hSame hj.symm

end Owns

end Ownership
