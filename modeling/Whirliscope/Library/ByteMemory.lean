import Mathlib.Tactic.Ring

/-
  Byte-addressed memory and little-endian fields.

  A memory is a function from addresses to bytes. Stores are
  range updates, so a block fill or a block copy is a single
  update, and every field access is an instance of the one
  little-endian reader `getLE`.

  Main declarations:
    * `wrap`, `alignDown`
    * `write`, `getLE`, `putLE`
    * `getLE_write_of_disjoint`
    * `getLE_write_of_subset`
    * `getLE_putLE_same`
-/

------------------------------------------------------------
-- Machine Words
------------------------------------------------------------

namespace ByteMemory

/- Truncate a value to a word of `bits` bits. -/
def wrap
    (bits value : Nat) : Nat :=
  value % 2 ^ bits

/- Unsigned subtraction of words of `bits` bits. -/
def wrapSub
    (bits left right : Nat) : Nat :=
  (left + 2 ^ bits - right % 2 ^ bits) % 2 ^ bits

theorem wrap_lt
    (bits value : Nat) :
    wrap bits value < 2 ^ bits :=
  Nat.mod_lt _ (Nat.two_pow_pos bits)

theorem wrap_of_lt
    {bits value : Nat}
    (hValue : value < 2 ^ bits) :
    wrap bits value = value :=
  Nat.mod_eq_of_lt hValue

/- Subtraction does not wrap when it does not underflow. -/
theorem wrapSub_of_le
    {bits left right : Nat}
    (hLeft : left < 2 ^ bits)
    (hLe : right ≤ left) :
    wrapSub bits left right = left - right := by
  have hRight : right % 2 ^ bits = right :=
    Nat.mod_eq_of_lt (by omega)
  have hSum :
      left + 2 ^ bits - right =
        (left - right) + 2 ^ bits := by
    omega
  rw [wrapSub, hRight, hSum, Nat.add_mod_right]
  exact Nat.mod_eq_of_lt (by omega)

/- Round down by clearing the bits below an alignment. -/
def alignDown
    (bits value alignment : Nat) : Nat :=
  value &&& (2 ^ bits - 1 - (alignment - 1))

/- Round up to an alignment; the sum may wrap around. -/
def alignUp
    (bits value alignment : Nat) : Nat :=
  alignDown bits (wrap bits (value + alignment - 1))
    alignment

/- Clearing low bits subtracts the remainder. -/
theorem alignDown_two_pow
    {bits shift value : Nat}
    (hShift : shift ≤ bits)
    (hValue : value < 2 ^ bits) :
    alignDown bits value (2 ^ shift) =
      value - value % 2 ^ shift := by
  have hPos : 0 < 2 ^ shift := Nat.two_pow_pos shift
  have hMask :
      2 ^ bits - 1 - (2 ^ shift - 1) =
        (2 ^ (bits - shift) - 1) <<< shift := by
    rw [Nat.shiftLeft_eq, Nat.sub_mul, ← Nat.pow_add,
      Nat.sub_add_cancel hShift, Nat.one_mul]
    omega
  have hRound :
      value - value % 2 ^ shift =
        (value >>> shift) <<< shift := by
    rw [Nat.shiftRight_eq_div_pow, Nat.shiftLeft_eq]
    have hSplit := Nat.div_add_mod' value (2 ^ shift)
    omega
  rw [alignDown, hMask, hRound]
  apply Nat.eq_of_testBit_eq
  intro i
  rw [Nat.testBit_and, Nat.testBit_shiftLeft,
    Nat.testBit_shiftLeft, Nat.testBit_shiftRight,
    Nat.testBit_two_pow_sub_one]
  by_cases hLow : shift ≤ i
  · by_cases hHigh : i < bits
    · have hBelow : i - shift < bits - shift := by omega
      simp [hLow, hBelow, Nat.add_sub_cancel' hLow]
    · have hPow : 2 ^ bits ≤ 2 ^ i :=
        Nat.pow_le_pow_right (by decide) (by omega)
      have hClear : value.testBit i = false :=
        Nat.testBit_lt_two_pow (by omega)
      simp [hLow, hClear, Nat.add_sub_cancel' hLow]
  · simp [hLow]

end ByteMemory

------------------------------------------------------------
-- Memories and Range Updates
------------------------------------------------------------

namespace ByteMemory

/- A memory assigns a byte to every address. -/
abbrev Bytes :=
  Nat → UInt8

/- The memory of zero bytes. -/
def zeros : Bytes :=
  fun _ => 0

/- The memory seen from a base address. -/
def slice
    (memory : Bytes)
    (base : Nat) : Bytes :=
  fun offset => memory (base + offset)

/- Store `count` bytes of `source` from `base` on. -/
def write
    (memory : Bytes)
    (base count : Nat)
    (source : Bytes) : Bytes :=
  fun address =>
    if base ≤ address ∧ address < base + count then
      source (address - base)
    else
      memory address

@[simp] theorem slice_apply
    (memory : Bytes)
    (base offset : Nat) :
    slice memory base offset = memory (base + offset) :=
  rfl

theorem write_of_mem
    {memory source : Bytes}
    {base count address : Nat}
    (hLow : base ≤ address)
    (hHigh : address < base + count) :
    write memory base count source address =
      source (address - base) := by
  simp [write, hLow, hHigh]

theorem write_of_not_mem
    {memory source : Bytes}
    {base count address : Nat}
    (hOutside :
      address < base ∨ base + count ≤ address) :
    write memory base count source address =
      memory address := by
  have hNot :
      ¬ (base ≤ address ∧ address < base + count) := by
    omega
  simp [write, hNot]

/- A store depends on the bytes that it stores. -/
theorem write_congr
    {memory source other : Bytes}
    {base count : Nat}
    (hSame : ∀ i, i < count → source i = other i) :
    write memory base count source =
      write memory base count other := by
  funext address
  by_cases hMem : base ≤ address ∧ address < base + count
  · rw [write_of_mem hMem.1 hMem.2, write_of_mem hMem.1 hMem.2,
      hSame _ (by omega)]
  · rw [write_of_not_mem (by omega),
      write_of_not_mem (by omega)]

/- Two stores, one after the other in the memory, are one. -/
theorem write_append
    (memory source : Bytes)
    (base first second : Nat) :
    write (write memory base first source) (base + first)
        second (slice source first) =
      write memory base (first + second) source := by
  funext address
  by_cases hLow : address < base
  · rw [write_of_not_mem (.inl (by omega)),
      write_of_not_mem (.inl hLow),
      write_of_not_mem (.inl hLow)]
  by_cases hFirst : address < base + first
  · rw [write_of_not_mem (.inl hFirst),
      write_of_mem (by omega) hFirst,
      write_of_mem (by omega) (by omega)]
  by_cases hSecond : address < base + (first + second)
  · rw [write_of_mem (by omega) (by omega),
      write_of_mem (by omega) hSecond, slice_apply]
    congr 1
    omega
  · rw [write_of_not_mem (.inr (by omega)),
      write_of_not_mem (.inr (by omega)),
      write_of_not_mem (.inr (by omega))]

@[simp] theorem write_zero
    (memory source : Bytes)
    (base : Nat) :
    write memory base 0 source = memory := by
  funext address
  exact write_of_not_mem (by omega)

/- Stores into ranges apart can be swapped. -/
theorem write_comm
    (memory : Bytes)
    {base count other width : Nat}
    (hApart :
      base + count ≤ other ∨ other + width ≤ base)
    (first second : Bytes) :
    write (write memory base count first) other width second =
      write (write memory other width second) base count
        first := by
  funext address
  by_cases hMem : base ≤ address ∧ address < base + count
  · rw [write_of_not_mem (by omega),
      write_of_mem hMem.1 hMem.2, write_of_mem hMem.1 hMem.2]
  · unfold write
    rw [if_neg hMem, if_neg hMem]

end ByteMemory

------------------------------------------------------------
-- Little-Endian Fields
------------------------------------------------------------

namespace ByteMemory

/- The little-endian value of `count` bytes at `base`. -/
def getLE
    (memory : Bytes) : Nat → Nat → Nat
| _, 0 => 0
| base, count + 1 =>
    (memory base).toNat +
      256 * getLE memory (base + 1) count

/- The little-endian bytes of a value. -/
def bytesLE
    (value : Nat) : Bytes :=
  fun index => UInt8.ofNat (value / 256 ^ index)

/- Store the low `count` bytes of a value at `base`. -/
def putLE
    (memory : Bytes)
    (base count value : Nat) : Bytes :=
  write memory base count (bytesLE value)

/- Store fields, given by address, width and value. -/
def putFields
    (memory : Bytes)
    (fields : List (Nat × Nat × Nat)) : Bytes :=
  fields.foldl
    (fun memory field =>
      putLE memory field.1 field.2.1 field.2.2)
    memory

theorem getLE_lt
    (memory : Bytes)
    (base count : Nat) :
    getLE memory base count < 256 ^ count := by
  induction count generalizing base with
  | zero => simp [getLE]
  | succ count ih =>
      have hTail := ih (base + 1)
      have hByte := (memory base).toNat_lt
      rw [getLE, Nat.pow_succ]
      omega

/- A field depends only on its own bytes. -/
theorem getLE_congr
    {left right : Bytes}
    {leftBase rightBase count : Nat}
    (hSame :
      ∀ index, index < count →
        left (leftBase + index) =
          right (rightBase + index)) :
    getLE left leftBase count =
      getLE right rightBase count := by
  induction count generalizing leftBase rightBase with
  | zero => rfl
  | succ count ih =>
      have hHead : left leftBase = right rightBase := by
        simpa using hSame 0 (by omega)
      have hTail :
          getLE left (leftBase + 1) count =
            getLE right (rightBase + 1) count := by
        apply ih
        intro index hIndex
        have hNext := hSame (index + 1) (by omega)
        rw [show leftBase + 1 + index =
            leftBase + (index + 1) by omega,
          show rightBase + 1 + index =
            rightBase + (index + 1) by omega]
        exact hNext
      rw [getLE, getLE, hHead, hTail]

/- A store elsewhere leaves a field alone. -/
theorem getLE_write_of_disjoint
    {memory source : Bytes}
    {base count field width : Nat}
    (hDisjoint :
      field + width ≤ base ∨ base + count ≤ field) :
    getLE (write memory base count source) field width =
      getLE memory field width := by
  apply getLE_congr
  intro index hIndex
  exact write_of_not_mem (by omega)

/- A field inside a store is a field of the source. -/
theorem getLE_write_of_subset
    {memory source : Bytes}
    {base count field width : Nat}
    (hLow : base ≤ field)
    (hHigh : field + width ≤ base + count) :
    getLE (write memory base count source) field width =
      getLE source (field - base) width := by
  apply getLE_congr
  intro index hIndex
  rw [write_of_mem (by omega) (by omega)]
  congr 1
  omega

theorem getLE_slice
    (memory : Bytes)
    (base field width : Nat) :
    getLE (slice memory base) field width =
      getLE memory (base + field) width := by
  apply getLE_congr
  intro index _
  simp [Nat.add_assoc]

@[simp] theorem getLE_zeros
    (field width : Nat) :
    getLE zeros field width = 0 := by
  induction width generalizing field with
  | zero => rfl
  | succ width ih => simp [getLE, ih, zeros]

/- Reading back a stored value truncates it. -/
theorem getLE_bytesLE
    (value first width : Nat) :
    getLE (bytesLE value) first width =
      value / 256 ^ first % 256 ^ width := by
  induction width generalizing first with
  | zero => simp [getLE, Nat.mod_one]
  | succ width ih =>
      rw [getLE, ih, Nat.pow_succ 256 first,
        ← Nat.div_div_eq_div_mul, Nat.pow_succ 256 width,
        Nat.mul_comm (256 ^ width) 256,
        Nat.mod_mul]
      simp [bytesLE]

theorem getLE_putLE_same
    (memory : Bytes)
    (base width value : Nat) :
    getLE (putLE memory base width value) base width =
      value % 256 ^ width := by
  rw [putLE, getLE_write_of_subset (by omega) (by omega),
    Nat.sub_self, getLE_bytesLE]
  simp

theorem getLE_putLE_of_disjoint
    {memory : Bytes}
    {base count field width value : Nat}
    (hDisjoint :
      field + width ≤ base ∨ base + count ≤ field) :
    getLE (putLE memory base count value) field width =
      getLE memory field width :=
  getLE_write_of_disjoint hDisjoint

end ByteMemory
