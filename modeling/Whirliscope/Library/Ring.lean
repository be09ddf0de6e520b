import Mathlib.Logic.Function.Basic
import Mathlib.Tactic.Common

/-
  Circular arrays.

  A window is what a circular array holds from a start
  position on; the start need not be reduced. Positions of a
  window no longer than the array do not meet, so a window
  grows by one write at its end.

  A circular log keeps the last elements written to it. A
  circular queue between two indexes leaves one slot unused,
  since equal indexes mean that it is empty.

  Main declarations:
    * `window`, `window_push`, `window_drop`
    * `KeepsLast`, `KeepsLast.push`
    * `queued`, `queued_push`, `queued_pop`
-/

------------------------------------------------------------
-- Windows
------------------------------------------------------------

namespace Ring

variable {α : Type}

/- `count` elements of a circular array, from `start` on. -/
def window
    (slots : Nat → α)
    (size start count : Nat) : List α :=
  (List.range count).map fun index =>
    slots ((start + index) % size)

@[simp] theorem length_window
    (slots : Nat → α)
    (size start count : Nat) :
    (window slots size start count).length = count := by
  simp [window]

@[simp] theorem window_zero
    (slots : Nat → α)
    (size start : Nat) :
    window slots size start 0 = [] :=
  rfl

theorem window_succ
    (slots : Nat → α)
    (size start count : Nat) :
    window slots size start (count + 1) =
      window slots size start count ++
        [slots ((start + count) % size)] := by
  simp [window, List.range_succ]

theorem window_cons
    (slots : Nat → α)
    (size start count : Nat) :
    window slots size start (count + 1) =
      slots (start % size) ::
        window slots size (start + 1) count := by
  simp only [window, List.range_succ_eq_map, List.map_cons,
    List.map_map, Nat.add_zero]
  congr 1
  apply List.map_congr_left
  intro index _
  rw [Function.comp_apply, Nat.succ_eq_add_one,
    Nat.add_assoc, Nat.add_comm 1]

/- The start of a window may be reduced. -/
theorem window_mod
    (slots : Nat → α)
    (size start count : Nat) :
    window slots size (start % size) count =
      window slots size start count := by
  simp [window]

theorem window_drop
    (slots : Nat → α)
    (size start count skipped : Nat) :
    (window slots size start count).drop skipped =
      window slots size (start + skipped) (count - skipped) := by
  induction skipped generalizing start count with
  | zero => simp
  | succ skipped hSkipped =>
      cases count with
      | zero => simp
      | succ count =>
          rw [window_cons, List.drop_succ_cons, hSkipped,
            Nat.succ_sub_succ, Nat.add_assoc,
            Nat.add_comm 1]

/- Positions less than a whole round apart do not meet. -/
theorem slot_ne
    {size index count : Nat}
    (start : Nat)
    (hIndex : index < count)
    (hCount : count < size) :
    (start + index) % size ≠ (start + count) % size := by
  intro hSame
  have hDvd : size ∣ (start + count) - (start + index) :=
    Nat.dvd_of_mod_eq_zero
      (Nat.sub_mod_eq_zero_of_mod_eq hSame.symm)
  have hZero := Nat.eq_zero_of_dvd_of_lt hDvd (by omega)
  omega

/- A write just after a window leaves it as it is. -/
theorem window_update
    (slots : Nat → α)
    {size count : Nat}
    (start : Nat)
    (value : α)
    (hCount : count < size) :
    window
        (Function.update slots ((start + count) % size) value)
        size start count =
      window slots size start count := by
  apply List.map_congr_left
  intro index hIndex
  exact Function.update_of_ne
    (slot_ne start (List.mem_range.mp hIndex) hCount) _ _

/- A write just after a window makes it longer. -/
theorem window_push
    (slots : Nat → α)
    {size count : Nat}
    (start : Nat)
    (value : α)
    (hCount : count < size) :
    window
        (Function.update slots ((start + count) % size) value)
        size start (count + 1) =
      window slots size start count ++ [value] := by
  rw [window_succ, window_update slots start value hCount,
    Function.update_self]

end Ring

------------------------------------------------------------
-- Logs
------------------------------------------------------------

namespace Ring

variable {α : Type}

/- A circular array keeps the last elements of a stream. -/
def KeepsLast
    (slots : Nat → α)
    (size : Nat)
    (stream : List α) : Prop :=
  window slots size (stream.length - size)
      (min stream.length size) =
    stream.drop (stream.length - size)

theorem KeepsLast.nil
    (slots : Nat → α)
    (size : Nat) :
    KeepsLast slots size [] := by
  simp [KeepsLast]

/- Writing at the length of the stream appends to it. -/
theorem KeepsLast.push
    {slots : Nat → α}
    {size : Nat}
    {stream : List α}
    (hKeeps : KeepsLast slots size stream)
    (value : α)
    (hSize : 0 < size) :
    KeepsLast
      (Function.update slots (stream.length % size) value)
      size (stream ++ [value]) := by
  unfold KeepsLast at *
  rw [List.length_append, List.length_singleton]
  by_cases hFull : stream.length < size
  · have hStart : stream.length + 1 - size = 0 := by omega
    have hBefore : stream.length - size = 0 := by omega
    rw [hBefore, Nat.min_eq_left (by omega)] at hKeeps
    have hPush := window_push slots 0 value hFull
    rw [Nat.zero_add] at hPush
    rw [hStart, Nat.min_eq_left (by omega), hPush, hKeeps]
    rfl
  · -- the window moves on by one, and its first slot is reused
    have hStart :
        stream.length + 1 - size = stream.length - size + 1 := by
      omega
    have hPush :=
      window_push slots (stream.length - size + 1) value
        (by omega : size - 1 < size)
    have hEnd :
        stream.length - size + 1 + (size - 1) =
          stream.length := by
      omega
    have hTail := window_drop slots size (stream.length - size)
      size 1
    rw [hEnd, Nat.sub_add_cancel hSize, ← hTail] at hPush
    rw [Nat.min_eq_right (by omega)] at hKeeps
    rw [hStart, Nat.min_eq_right (by omega), hPush, hKeeps,
      List.drop_drop,
      List.drop_append_of_le_length (by omega)]

/- The last elements, read from a window. -/
theorem KeepsLast.tail
    {slots : Nat → α}
    {size count : Nat}
    {stream : List α}
    (hKeeps : KeepsLast slots size stream)
    (hCount : count ≤ min stream.length size) :
    window slots size (stream.length - count) count =
      stream.drop (stream.length - count) := by
  have hDrop := congrArg
    (List.drop (min stream.length size - count)) hKeeps
  rw [window_drop, List.drop_drop] at hDrop
  have hStart :
      stream.length - size +
          (min stream.length size - count) =
        stream.length - count := by
    omega
  rwa [hStart, Nat.sub_sub_self hCount] at hDrop

end Ring

------------------------------------------------------------
-- Queues
------------------------------------------------------------

namespace Ring

variable {α : Type}

/- How far the writer is ahead of the reader. -/
def ahead
    (size reader writer : Nat) : Nat :=
  (writer + size - reader) % size

/- The elements between the two indexes. -/
def queued
    (slots : Nat → α)
    (size reader writer : Nat) : List α :=
  window slots size reader (ahead size reader writer)

theorem ahead_lt
    {size : Nat}
    (reader writer : Nat)
    (hSize : 0 < size) :
    ahead size reader writer < size :=
  Nat.mod_lt _ hSize

/- The writer's index, from the reader's. -/
theorem reader_add_ahead
    {size reader writer : Nat}
    (hReader : reader < size)
    (hWriter : writer < size) :
    (reader + ahead size reader writer) % size = writer := by
  rw [ahead, Nat.add_mod_mod,
    show reader + (writer + size - reader) = writer + size by
      omega,
    Nat.add_mod_right, Nat.mod_eq_of_lt hWriter]

theorem ahead_add
    {size reader count : Nat}
    (hReader : reader < size)
    (hCount : count < size) :
    ahead size reader ((reader + count) % size) = count := by
  have hAhead := reader_add_ahead hReader
    (Nat.mod_lt (reader + count) (by omega : 0 < size))
  have hLt := ahead_lt reader ((reader + count) % size)
    (by omega : 0 < size)
  by_contra hNe
  rcases Nat.lt_or_gt_of_ne hNe with hLess | hMore
  · exact slot_ne reader hLess hCount hAhead
  · exact slot_ne reader hMore hLt hAhead.symm

theorem queued_eq_nil_iff
    (slots : Nat → α)
    {size reader writer : Nat}
    (hReader : reader < size)
    (hWriter : writer < size) :
    queued slots size reader writer = [] ↔ reader = writer := by
  rw [← List.length_eq_zero_iff, queued, length_window]
  constructor
  · intro hAhead
    have hIndex := reader_add_ahead hReader hWriter
    rwa [hAhead, Nat.add_zero,
      Nat.mod_eq_of_lt hReader] at hIndex
  · rintro rfl
    rw [ahead, Nat.add_sub_cancel_left, Nat.mod_self]

/- The writer meets the reader when one slot is left. -/
theorem queued_full_iff
    (slots : Nat → α)
    {size reader writer : Nat}
    (hReader : reader < size)
    (hWriter : writer < size) :
    (writer + 1) % size = reader ↔
      (queued slots size reader writer).length = size - 1 := by
  have hIndex := reader_add_ahead hReader hWriter
  have hLt := ahead_lt reader writer (by omega : 0 < size)
  have hNext :
      (writer + 1) % size =
        (reader + (ahead size reader writer + 1)) % size := by
    conv_lhs => rw [← hIndex, Nat.mod_add_mod, Nat.add_assoc]
  rw [queued, length_window, hNext]
  constructor
  · intro hMeet
    by_contra hNotFull
    have hMore : ahead size reader writer + 1 < size := by
      omega
    refine slot_ne reader (Nat.succ_pos _) hMore ?_
    rw [Nat.add_zero, Nat.mod_eq_of_lt hReader, hMeet]
  · intro hFull
    rw [hFull, Nat.sub_add_cancel (by omega),
      Nat.add_mod_right, Nat.mod_eq_of_lt hReader]

/- Writing at the writer's index appends to the queue. -/
theorem queued_push
    (slots : Nat → α)
    {size reader writer : Nat}
    (value : α)
    (hReader : reader < size)
    (hWriter : writer < size)
    (hRoom : (queued slots size reader writer).length < size - 1) :
    queued (Function.update slots writer value) size reader
        ((writer + 1) % size) =
      queued slots size reader writer ++ [value] := by
  rw [queued, length_window] at hRoom
  have hIndex := reader_add_ahead hReader hWriter
  have hNext :
      (writer + 1) % size =
        (reader + (ahead size reader writer + 1)) % size := by
    conv_lhs => rw [← hIndex, Nat.mod_add_mod, Nat.add_assoc]
  have hPush :=
    window_push slots reader value
      (by omega : ahead size reader writer < size)
  rw [hIndex] at hPush
  rw [queued, queued, hNext, ahead_add hReader (by omega),
    hPush]

/- Stepping the reader takes the first element. -/
theorem queued_pop
    (slots : Nat → α)
    {size reader writer : Nat}
    (hReader : reader < size)
    (hWriter : writer < size)
    (hNe : reader ≠ writer) :
    queued slots size reader writer =
      slots reader ::
        queued slots size ((reader + 1) % size) writer := by
  have hIndex := reader_add_ahead hReader hWriter
  have hLt := ahead_lt reader writer (by omega : 0 < size)
  obtain ⟨rest, hAhead⟩ :
      ∃ rest, ahead size reader writer = rest + 1 := by
    refine Nat.exists_eq_add_one.mpr (Nat.pos_of_ne_zero ?_)
    intro hZero
    have hNil : queued slots size reader writer = [] := by
      rw [queued, hZero, window_zero]
    exact hNe ((queued_eq_nil_iff slots hReader hWriter).mp hNil)
  have hWriterEq :
      writer = ((reader + 1) % size + rest) % size := by
    rw [Nat.mod_add_mod, ← hIndex, hAhead, Nat.add_assoc,
      Nat.add_comm 1]
  have hRest :
      ahead size ((reader + 1) % size) writer = rest := by
    rw [hWriterEq]
    exact ahead_add (Nat.mod_lt _ (by omega)) (by omega)
  rw [queued, queued, hRest, hAhead, window_cons,
    Nat.mod_eq_of_lt hReader, window_mod]

end Ring
