import Mathlib.Data.List.Basic
import Mathlib.Tactic.Common

/-
  Strings that are read, overwritten and resized in place.

  A string may be given by its length and its elements, as the
  store that holds it sees it. Then the three operations only
  choose which elements count.

  Key definitions include:
    * `tabulate`
    * `excerpt`, `overwrite`, `resize`

  Main theorems:
    * `excerpt_tabulate`
    * `overwrite_tabulate`
    * `resize_tabulate`
-/

------------------------------------------------------------
-- Strings by Their Elements
------------------------------------------------------------

namespace ByteStrings

variable {α : Type}

/- The string of the first elements of a function. -/
def tabulate
    (size : Nat)
    (elements : Nat → α) : List α :=
  (List.range size).map elements

/- The elements from an offset on, `len` of them at most. -/
def excerpt
    (content : List α)
    (offset len : Nat) : List α :=
  (content.drop offset).take len

/-
  Elements are replaced from an offset on. The string grows
  when they reach past its end.
-/
def overwrite
    (content : List α)
    (offset : Nat)
    (source : List α) : List α :=
  content.take offset ++ source ++
    content.drop (offset + source.length)

/- The string is cut off, or filled up to its new size. -/
def resize
    (fill : α)
    (content : List α)
    (size : Nat) : List α :=
  content.take size ++
    List.replicate (size - content.length) fill

@[simp] theorem length_tabulate
    (size : Nat)
    (elements : Nat → α) :
    (tabulate size elements).length = size := by
  rw [tabulate, List.length_map, List.length_range]

theorem getElem?_tabulate
    (size : Nat)
    (elements : Nat → α)
    (i : Nat) :
    (tabulate size elements)[i]? =
      if i < size then some (elements i) else none := by
  rw [tabulate, List.getElem?_map]
  split
  · next hi => rw [List.getElem?_range hi, Option.map_some]
  · next hi =>
      rw [List.getElem?_eq_none, Option.map_none]
      rw [List.length_range]
      exact Nat.le_of_not_lt hi

/- Only the elements below the size count. -/
theorem tabulate_congr
    {size : Nat}
    {elements others : Nat → α}
    (hSame : ∀ i < size, elements i = others i) :
    tabulate size elements = tabulate size others := by
  unfold tabulate
  apply List.map_congr_left
  intro i hi
  exact hSame i (List.mem_range.mp hi)

end ByteStrings

------------------------------------------------------------
-- The Operations on Elements
------------------------------------------------------------

namespace ByteStrings

variable {α : Type}

theorem length_overwrite
    {content source : List α}
    {offset : Nat}
    (hOffset : offset ≤ content.length) :
    (overwrite content offset source).length =
      max content.length (offset + source.length) := by
  rw [overwrite, List.length_append, List.length_append,
    List.length_take, List.length_drop]
  omega

theorem length_resize
    (fill : α)
    (content : List α)
    (size : Nat) :
    (resize fill content size).length = size := by
  rw [resize, List.length_append, List.length_take,
    List.length_replicate]
  omega

theorem getElem?_overwrite
    {content source : List α}
    {offset : Nat}
    (hOffset : offset ≤ content.length)
    (i : Nat) :
    (overwrite content offset source)[i]? =
      if offset ≤ i ∧ i < offset + source.length then
        source[i - offset]?
      else
        content[i]? := by
  have hTake : (content.take offset).length = offset := by
    rw [List.length_take]
    omega
  rw [overwrite, List.append_assoc]
  by_cases hBefore : i < offset
  · rw [if_neg (by omega),
      List.getElem?_append_left (by omega),
      List.getElem?_take_of_lt hBefore]
  rw [List.getElem?_append_right (by omega), hTake]
  by_cases hInside : i < offset + source.length
  · rw [if_pos (by omega),
      List.getElem?_append_left (by omega)]
  · rw [if_neg (by omega),
      List.getElem?_append_right (by omega),
      List.getElem?_drop]
    congr 1
    omega

theorem getElem?_resize
    (fill : α)
    (content : List α)
    (size i : Nat) :
    (resize fill content size)[i]? =
      if i < size then some (content[i]?.getD fill)
      else none := by
  rw [resize]
  by_cases hSize : i < size
  · rw [if_pos hSize]
    by_cases hOld : i < content.length
    · rw [List.getElem?_append_left
        (by rw [List.length_take]; omega),
        List.getElem?_take_of_lt hSize,
        List.getElem?_eq_getElem hOld, Option.getD_some]
    · rw [List.getElem?_append_right
          (by rw [List.length_take]; omega),
        List.length_take, List.getElem?_replicate,
        if_pos (by omega),
        List.getElem?_eq_none (by omega : content.length ≤ i),
        Option.getD_none]
  · rw [if_neg hSize, List.getElem?_eq_none]
    rw [List.length_append, List.length_take,
      List.length_replicate]
    omega

end ByteStrings

------------------------------------------------------------
-- The Operations on Tabulated Strings
------------------------------------------------------------

namespace ByteStrings

variable {α : Type}

theorem excerpt_tabulate
    (size : Nat)
    (elements : Nat → α)
    (offset len : Nat) :
    excerpt (tabulate size elements) offset len =
      tabulate (min len (size - offset))
        fun i => elements (offset + i) := by
  apply List.ext_getElem?
  intro i
  rw [excerpt, List.getElem?_take, List.getElem?_drop,
    getElem?_tabulate, getElem?_tabulate]
  split_ifs <;> first | rfl | omega

theorem overwrite_tabulate
    {size offset : Nat}
    (hOffset : offset ≤ size)
    (elements : Nat → α)
    (len : Nat)
    (source : Nat → α) :
    overwrite (tabulate size elements) offset
        (tabulate len source) =
      tabulate (max size (offset + len)) fun i =>
        if offset ≤ i ∧ i < offset + len then
          source (i - offset)
        else
          elements i := by
  apply List.ext_getElem?
  intro i
  rw [getElem?_overwrite (by rwa [length_tabulate]),
    length_tabulate, getElem?_tabulate, getElem?_tabulate,
    getElem?_tabulate]
  by_cases hInside : offset ≤ i ∧ i < offset + len
  · rw [if_pos hInside, if_pos (by omega), if_pos (by omega),
      if_pos hInside]
  · rw [if_neg hInside, if_neg hInside]
    split_ifs <;> first | rfl | omega

theorem resize_tabulate
    (fill : α)
    (size : Nat)
    (elements : Nat → α)
    (newSize : Nat) :
    resize fill (tabulate size elements) newSize =
      tabulate newSize fun i =>
        if i < size then elements i else fill := by
  apply List.ext_getElem?
  intro i
  rw [getElem?_resize, getElem?_tabulate, getElem?_tabulate]
  split_ifs <;> rfl

end ByteStrings
