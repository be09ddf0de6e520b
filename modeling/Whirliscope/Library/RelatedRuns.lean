import Mathlib.Tactic.Common

/-
  Two runs of one program over different states.

  Two computations are related when they stop with the same
  fault, or return related values. A program that touches its
  state through one operation only is related to itself as
  soon as that operation is.

  Main declarations:
    * `Related`
    * `Related.bind`
    * `Related.of_eq_ok`
-/

------------------------------------------------------------
-- Related Computations
------------------------------------------------------------

namespace RelatedRuns

variable {ε α β γ δ : Type}

/- The same fault, or related values. -/
inductive Related
    (rel : α → β → Prop) :
    Except ε α → Except ε β → Prop
| ok
    {left : α}
    {right : β}
    (hRel : rel left right) :
    Related rel (.ok left) (.ok right)
| error
    (fault : ε) :
    Related rel (.error fault) (.error fault)

variable {rel : α → β → Prop} {rel' : γ → δ → Prop}

/- Sequences of related computations are related. -/
theorem Related.bind
    {first : Except ε α}
    {first' : Except ε β}
    {next : α → Except ε γ}
    {next' : β → Except ε δ}
    (hFirst : Related rel first first')
    (hNext :
      ∀ left right, rel left right →
        Related rel' (next left) (next' right)) :
    Related rel' (first >>= next) (first' >>= next') := by
  cases hFirst with
  | ok hRel => exact hNext _ _ hRel
  | error fault => exact .error fault

/- A computation without the state comes first. -/
theorem Related.bind_same
    {first : Except ε α}
    {next : α → Except ε γ}
    {next' : α → Except ε δ}
    (hNext :
      ∀ value, first = .ok value →
        Related rel' (next value) (next' value)) :
    Related rel' (first >>= next) (first >>= next') := by
  cases first with
  | ok value => exact hNext value rfl
  | error fault => exact .error fault

theorem Related.ite
    {condition : Prop}
    [Decidable condition]
    {left right : Except ε α}
    {left' right' : Except ε β}
    (hLeft : Related rel left left')
    (hRight : Related rel right right') :
    Related rel (if condition then left else right)
      (if condition then left' else right') := by
  by_cases hCondition : condition
  · rw [if_pos hCondition, if_pos hCondition]
    exact hLeft
  · rw [if_neg hCondition, if_neg hCondition]
    exact hRight

/- What the left run returns has a match on the right. -/
theorem Related.of_eq_ok
    {left : Except ε α}
    {right : Except ε β}
    (hRelated : Related rel left right)
    {value : α}
    (hLeft : left = .ok value) :
    ∃ value', right = .ok value' ∧ rel value value' := by
  cases hRelated with
  | ok hRel =>
      cases hLeft
      exact ⟨_, rfl, hRel⟩
  | error fault => cases hLeft

end RelatedRuns
