import Mathlib.Tactic.Common
import Whirliscope.Libc.Format

/-
  The sizes that the shell's truncate command reads.

  `parse_decimal_size` computes modulo the range of `size_t`
  and takes a step for an overflow only when its result falls
  below the value before it. Multiplication by ten may wrap
  around and still come out larger.

  A string is the list of its characters before the NUL.

  Key definitions include:
    * `parseDecimalSize`, `commandTruncate`
    * `numeral`, `typedSize`, `HiddenWrap`

  Main theorem:
    * `parseDecimalSize_exact_iff`
-/

------------------------------------------------------------
-- The Command
------------------------------------------------------------

namespace Whirliscope

namespace Shell

open ByteMemory
open Stdio

/- `is_space`. -/
def isSpace
    (ch : UInt8) : Bool :=
  ch == code ' ' || ch == code '\t' ||
    ch == code '\r' || ch == code '\n'

/- `skip_spaces`. -/
def skipSpaces
    (s : List UInt8) : List UInt8 :=
  s.dropWhile isSpace

/- The loop of `parse_decimal_size`. -/
def parseDigits
    (value : Nat) : List UInt8 → Option Nat
| [] => some value
| ch :: rest =>
    -- a `char` above 127 is negative, and refused all the same
    if ch < code '0' ∨ code '9' < ch then
      none
    else
      let next := wrap 64 (value * 10 + (ch - code '0').toNat)
      if next < value then
        none
      else
        parseDigits next rest

/- `parse_decimal_size`. -/
def parseDecimalSize
    (s : List UInt8) : Option Nat :=
  if s = [] then none else parseDigits 0 s

/- What the shell asks of the kernel. -/
inductive Action where
| print (s : List UInt8)
| clear
| fsTruncate (path : List UInt8) (size : Nat)
deriving DecidableEq, Repr

/- `println`. -/
def println
    (s : List UInt8) : List Action :=
  [.print s, .print [code '\n']]

/- The words of the operands of `command_truncate`. -/
def splitOperands
    (args : List UInt8) :
    List UInt8 × List UInt8 :=
  ((skipSpaces args).takeWhile (!isSpace ·),
    (skipSpaces args).dropWhile (!isSpace ·))

/- Where `command_truncate` looks for the size. -/
def sizeOperand
    (args : List UInt8) : List UInt8 :=
  skipSpaces (splitOperands args).2.tail

/- `command_truncate`, where `userFsTruncate` answers the call. -/
def commandTruncate
    (userFsTruncate : List UInt8 → Nat → Int)
    (args : List UInt8) : List Action :=
  let usage := println (text "usage: truncate <path> <size>")
  if skipSpaces args = [] then
    usage
  else
    let path := (splitOperands args).1
    if (splitOperands args).2 = [] then
      usage
    else
      match parseDecimalSize (sizeOperand args) with
      | none => usage
      | some size =>
          .fsTruncate path size ::
            if userFsTruncate path size ≠ 0 then
              .print (text "truncate: cannot resize ") ::
                println path
            else
              println (text "truncate: resized file")

/- The command passes on the size that it parsed. -/
theorem commandTruncate_passes
    {userFsTruncate : List UInt8 → Nat → Int}
    {args path : List UInt8}
    {size : Nat}
    (hPasses :
      .fsTruncate path size ∈
        commandTruncate userFsTruncate args) :
    parseDecimalSize (sizeOperand args) = some size := by
  unfold commandTruncate at hPasses
  by_cases hEmpty : skipSpaces args = []
  · simp [hEmpty, println] at hPasses
  · by_cases hRest : (splitOperands args).2 = []
    · simp [hEmpty, hRest, println] at hPasses
    · simp only [hEmpty, hRest, ↓reduceIte] at hPasses
      cases hParse : parseDecimalSize (sizeOperand args) with
      | none => simp [hParse, println] at hPasses
      | some parsed =>
          simp only [hParse, List.mem_cons,
            Action.fsTruncate.injEq] at hPasses
          rcases hPasses with ⟨-, rfl⟩ | hPasses
          · rfl
          · split at hPasses <;>
              simp [println] at hPasses

end Shell

end Whirliscope

------------------------------------------------------------
-- Numerals
------------------------------------------------------------

namespace Whirliscope

namespace Shell

open ByteMemory
open Stdio

def IsDigit
    (ch : UInt8) : Prop :=
  code '0' ≤ ch ∧ ch ≤ code '9'
deriving Decidable

/- The value of a string of digits after `value`. -/
def numeralFrom
    (value : Nat)
    (s : List UInt8) : Nat :=
  s.foldl (fun value ch => value * 10 + (ch - code '0').toNat)
    value

abbrev numeral
    (s : List UInt8) : Nat :=
  numeralFrom 0 s

/- `SIZE_MAX`. -/
def sizeMax : Nat := 2 ^ 64 - 1

instance
    (s : List UInt8) : Decidable (∀ ch ∈ s, IsDigit ch) :=
  List.decidableBAll IsDigit s

/- The size that a string stands for. -/
def typedSize
    (s : List UInt8) : Option Nat :=
  if s ≠ [] ∧ (∀ ch ∈ s, IsDigit ch) ∧ numeral s ≤ sizeMax then
    some (numeral s)
  else
    none

/-
  Digit by digit, the running value modulo the range of
  `size_t` never falls.
-/
def NeverFalls
    (value : Nat)
    (s : List UInt8) : Prop :=
  ∀ count < s.length,
    numeralFrom value (s.take count) % 2 ^ 64 ≤
      numeralFrom value (s.take (count + 1)) % 2 ^ 64

instance
    (value : Nat)
    (s : List UInt8) : Decidable (NeverFalls value s) :=
  decidable_of_iff
    (∀ count : Fin s.length,
      numeralFrom value (s.take count) % 2 ^ 64 ≤
        numeralFrom value (s.take (count + 1)) % 2 ^ 64)
    Fin.forall_iff

/- The number is too large, and no digit shows it. -/
def HiddenWrap
    (s : List UInt8) : Prop :=
  (∀ ch ∈ s, IsDigit ch) ∧
    sizeMax < numeral s ∧
    NeverFalls 0 s
deriving Decidable

@[simp] theorem numeralFrom_nil
    (value : Nat) :
    numeralFrom value [] = value :=
  rfl

@[simp] theorem numeralFrom_cons
    (value : Nat)
    (ch : UInt8)
    (rest : List UInt8) :
    numeralFrom value (ch :: rest) =
      numeralFrom (value * 10 + (ch - code '0').toNat) rest :=
  rfl

/- Further digits never make a number smaller. -/
theorem le_numeralFrom
    (value : Nat)
    (s : List UInt8) :
    value ≤ numeralFrom value s := by
  induction s generalizing value with
  | nil => exact Nat.le_refl _
  | cons ch rest hRest =>
      exact Nat.le_trans (by omega)
        (hRest (value * 10 + (ch - code '0').toNat))

theorem numeralFrom_take_mono
    (value : Nat)
    (s : List UInt8)
    (count : Nat) :
    numeralFrom value (s.take count) ≤
      numeralFrom value (s.take (count + 1)) := by
  rw [List.take_add_one, numeralFrom, numeralFrom,
    List.foldl_append]
  exact le_numeralFrom _ _

theorem numeralFrom_take_le
    (value : Nat)
    (s : List UInt8)
    (count : Nat) :
    numeralFrom value (s.take count) ≤ numeralFrom value s := by
  conv_rhs => rw [← List.take_append_drop count s]
  rw [numeralFrom, numeralFrom, List.foldl_append]
  exact le_numeralFrom _ _

theorem neverFalls_cons_iff
    (value : Nat)
    (ch : UInt8)
    (rest : List UInt8) :
    NeverFalls value (ch :: rest) ↔
      value % 2 ^ 64 ≤
          (value * 10 + (ch - code '0').toNat) % 2 ^ 64 ∧
        NeverFalls (value * 10 + (ch - code '0').toNat)
          rest := by
  constructor
  · intro hNever
    refine ⟨hNever 0 (by simp), fun count hCount => ?_⟩
    exact hNever (count + 1) (by simpa using hCount)
  · rintro ⟨hFirst, hRest⟩ count hCount
    cases count with
    | zero => exact hFirst
    | succ count =>
        exact hRest count (by simpa using hCount)

/- A number in range never falls. -/
theorem neverFalls_of_le
    {s : List UInt8}
    (hValue : numeral s ≤ sizeMax) :
    NeverFalls 0 s := by
  intro count _
  have hRange (count : Nat) :
      numeralFrom 0 (s.take count) < 2 ^ 64 := by
    have hTake := numeralFrom_take_le 0 s count
    exact Nat.lt_of_le_of_lt (Nat.le_trans hTake hValue)
      (by decide)
  rw [Nat.mod_eq_of_lt (hRange _), Nat.mod_eq_of_lt (hRange _)]
  exact numeralFrom_take_mono 0 s count

end Shell

end Whirliscope

------------------------------------------------------------
-- What Is Parsed
------------------------------------------------------------

namespace Whirliscope

namespace Shell

open ByteMemory
open Stdio

theorem not_isDigit_iff
    (ch : UInt8) :
    ¬ IsDigit ch ↔ ch < code '0' ∨ code '9' < ch := by
  rw [IsDigit, not_and_or, UInt8.not_le, UInt8.not_le]

/- Only digits are parsed. -/
theorem parseDigits_digits
    {value size : Nat}
    {s : List UInt8}
    (hParse : parseDigits value s = some size) :
    ∀ ch ∈ s, IsDigit ch := by
  induction s generalizing value with
  | nil => simp
  | cons first rest hRest =>
      rw [parseDigits] at hParse
      split at hParse
      next => cases hParse
      next hDigit =>
        simp only at hParse
        split at hParse
        next => cases hParse
        next =>
          rw [← not_isDigit_iff, not_not] at hDigit
          exact List.forall_mem_cons.mpr
            ⟨hDigit, hRest hParse⟩

/- On digits the loop answers the value modulo the range. -/
theorem parseDigits_of_digits
    {s : List UInt8}
    (value : Nat)
    (hDigits : ∀ ch ∈ s, IsDigit ch) :
    parseDigits (value % 2 ^ 64) s =
      if NeverFalls value s then
        some (numeralFrom value s % 2 ^ 64)
      else
        none := by
  induction s generalizing value with
  | nil => simp [parseDigits, NeverFalls]
  | cons first rest hRest =>
      obtain ⟨hFirst, hDigits⟩ := List.forall_mem_cons.mp hDigits
      have hStep :
          wrap 64
              (value % 2 ^ 64 * 10 + (first - code '0').toNat) =
            (value * 10 + (first - code '0').toNat) % 2 ^ 64 := by
        unfold wrap
        omega
      rw [parseDigits, if_neg (by
        rw [← not_isDigit_iff, not_not]
        exact hFirst)]
      simp only [hStep, numeralFrom_cons]
      by_cases hFall :
          (value * 10 + (first - code '0').toNat) % 2 ^ 64 <
            value % 2 ^ 64
      · rw [if_pos hFall, if_neg]
        intro hNever
        have hNotBelow :=
          ((neverFalls_cons_iff _ _ _).mp hNever).1
        omega
      · rw [if_neg hFall, hRest _ hDigits]
        have hIff :
            NeverFalls value (first :: rest) ↔
              NeverFalls
                (value * 10 + (first - code '0').toNat) rest := by
          rw [neverFalls_cons_iff]
          exact and_iff_right (by omega)
        simp only [hIff]

/- What is parsed is what was typed, but for hidden wraps. -/
theorem parseDecimalSize_eq_iff
    (s : List UInt8) :
    parseDecimalSize s = typedSize s ↔ ¬ HiddenWrap s := by
  by_cases hEmpty : s = []
  · have hHidden : ¬ HiddenWrap s := fun hHidden => by
      have hLarge := hHidden.2.1
      rw [hEmpty, numeral, numeralFrom_nil] at hLarge
      exact Nat.not_lt_zero _ hLarge
    rw [parseDecimalSize, if_pos hEmpty, typedSize,
      if_neg fun hTyped => hTyped.1 hEmpty]
    exact iff_of_true rfl hHidden
  · rw [parseDecimalSize, if_neg hEmpty]
    by_cases hDigits : ∀ ch ∈ s, IsDigit ch
    · have hParse := parseDigits_of_digits 0 hDigits
      rw [Nat.zero_mod] at hParse
      rw [hParse]
      by_cases hValue : numeral s ≤ sizeMax
      · have hMod : numeral s % 2 ^ 64 = numeral s :=
          Nat.mod_eq_of_lt (by unfold sizeMax at hValue; omega)
        rw [if_pos (neverFalls_of_le hValue), typedSize,
          if_pos ⟨hEmpty, hDigits, hValue⟩, hMod]
        exact iff_of_true rfl fun hHidden => by
          have hLarge := hHidden.2.1
          omega
      · have hTyped : typedSize s = none :=
          if_neg fun hTyped => hValue hTyped.2.2
        rw [hTyped]
        have hLarge : sizeMax < numeral s := by omega
        by_cases hNever : NeverFalls 0 s
        · rw [if_pos hNever]
          exact iff_of_false (by simp)
            (not_not.mpr ⟨hDigits, hLarge, hNever⟩)
        · rw [if_neg hNever]
          exact iff_of_true rfl fun hHidden =>
            hNever hHidden.2.2
    · have hTyped : typedSize s = none :=
        if_neg fun hTyped => hDigits hTyped.2.1
      rw [hTyped]
      refine iff_of_true ?_ fun hHidden => hDigits hHidden.1
      rw [Option.eq_none_iff_forall_not_mem]
      exact fun size hParse =>
        hDigits (parseDigits_digits hParse)

/-
  The string is parsed as the size it stands for, and no
  other size is passed on when it is the operand of the
  truncate command, exactly when no wrap stays hidden.
-/
theorem parseDecimalSize_exact_iff
    (s : List UInt8) :
    (parseDecimalSize s = typedSize s ∧
        ∀ userFsTruncate args path size,
          sizeOperand args = s →
          .fsTruncate path size ∈
            commandTruncate userFsTruncate args →
          typedSize s = some size) ↔
      ¬ HiddenWrap s := by
  rw [← parseDecimalSize_eq_iff]
  refine ⟨And.left, fun hParse => ⟨hParse, ?_⟩⟩
  intro userFsTruncate args path size hOperand hPasses
  rw [← hParse, ← hOperand]
  exact commandTruncate_passes hPasses

/- Thirty quintillions are parsed as eleven and a half. -/
theorem truncate_passes_smaller_size :
    typedSize (text "30000000000000000000") = none ∧
      parseDecimalSize (text "30000000000000000000") =
        some 11553255926290448384 ∧
      .fsTruncate (text "file") 11553255926290448384 ∈
        commandTruncate (fun _ _ => 0)
          (text "file 30000000000000000000") := by
  decide +kernel

end Shell

end Whirliscope
