import Mathlib.Data.List.Nodup

/-
  Lists that are threaded through their own cells.

  The link to the next cell is stored in the cell, and a null
  address ends the list.

  Main declarations:
    * `Threaded`
    * `Threaded.push`, `Threaded.pop`
    * `Threaded.congr`
-/

------------------------------------------------------------
-- Threaded Lists
------------------------------------------------------------

namespace FreeList

variable {α : Type} {null head cell : α}
variable {cells : List α} {next next' : α → α}

/- The cells that the links lead to from `head` on. -/
def Threaded
    (next : α → α)
    (null : α) : α → List α → Prop
| head, [] => head = null
| head, cell :: cells =>
    head = cell ∧ cell ≠ null ∧
      Threaded next null (next cell) cells

theorem Threaded.head_eq_null_iff
    (hThreaded : Threaded next null head cells) :
    head = null ↔ cells = [] := by
  cases cells with
  | nil => exact ⟨fun _ => rfl, fun _ => hThreaded⟩
  | cons cell cells =>
      rcases hThreaded with ⟨rfl, hNull, -⟩
      exact ⟨fun h => absurd h hNull, by simp⟩

/- The list depends on the links of its cells only. -/
theorem Threaded.congr
    (hThreaded : Threaded next null head cells)
    (hSame : ∀ cell ∈ cells, next' cell = next cell) :
    Threaded next' null head cells := by
  induction cells generalizing head with
  | nil => exact hThreaded
  | cons cell cells ih =>
      rcases hThreaded with ⟨hHead, hNull, hRest⟩
      refine ⟨hHead, hNull, ?_⟩
      rw [hSame cell List.mem_cons_self]
      exact ih hRest fun other hOther =>
        hSame other (List.mem_cons_of_mem _ hOther)

/- A cell that links to the old head becomes the head. -/
theorem Threaded.push
    (hThreaded : Threaded next null head cells)
    (hNull : cell ≠ null)
    (hLink : next' cell = head)
    (hSame : ∀ other ∈ cells, next' other = next other) :
    Threaded next' null cell (cell :: cells) := by
  refine ⟨rfl, hNull, ?_⟩
  rw [hLink]
  exact hThreaded.congr hSame

/- The link of the head is the head of the rest. -/
theorem Threaded.pop
    (hThreaded :
      Threaded next null head (cell :: cells)) :
    head = cell ∧ Threaded next null (next head) cells := by
  rcases hThreaded with ⟨rfl, -, hRest⟩
  exact ⟨rfl, hRest⟩

end FreeList
