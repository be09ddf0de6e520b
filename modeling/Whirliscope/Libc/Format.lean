import Mathlib.Data.Nat.Digits.Defs
import Whirliscope.Library.ByteMemory
import Whirliscope.Library.FaultProgram

/-
  The formatter behind `printf`.

  The formatter hands characters to a sink one by one. A sink
  sees the whole `struct out`, since the sink of `vsnprintf`
  reads the running count through a pointer to it.

  Arguments are the eight-byte slots that `va_arg` steps
  through, and strings are read from memory. Overflow of an
  `int` and a missing argument are faults.

  Key definitions include:
    * `Out`, `Put`, `emitChar`
    * `emitNumber`, `emitPaddedString`
    * `parseDirective`, `vformat`
-/

------------------------------------------------------------
-- Sinks
------------------------------------------------------------

namespace Whirliscope

namespace Stdio

open ByteMemory

/- What the language leaves undefined. -/
inductive Fault where
| overflow
| arguments
deriving DecidableEq, Repr

/- The byte of a character. -/
def code
    (ch : Char) : UInt8 :=
  UInt8.ofNat ch.toNat

def text
    (s : String) : List UInt8 :=
  s.toList.map code

/- `struct out`, with the state of its sink. -/
structure Out (σ : Type) where
  ctx : σ
  count : Nat

/- The `put` function of a sink. -/
abbrev Put (σ : Type) :=
  UInt8 → Out σ → σ

variable {σ : Type}

/- `emit_char`. -/
def emitChar
    (put : Put σ)
    (ch : UInt8)
    (out : Out σ) : Out σ where
  ctx := put ch out
  count := wrap 64 (out.count + 1)

/- `emit_repeat`. -/
def emitRepeat
    (put : Put σ)
    (ch : UInt8) : Nat → Out σ → Out σ
| 0, out => out
| count + 1, out =>
    emitRepeat put ch count (emitChar put ch out)

/- The loops that emit the characters of a string. -/
def emitAll
    (put : Put σ) : List UInt8 → Out σ → Out σ
| [], out => out
| ch :: chars, out =>
    emitAll put chars (emitChar put ch out)

end Stdio

end Whirliscope

------------------------------------------------------------
-- Arguments and Digits
------------------------------------------------------------

namespace Whirliscope

namespace Stdio

open ByteMemory

/- The result of an `int` operation. -/
def checkInt
    (value : Int) : Except Fault Int :=
  if -2 ^ 31 ≤ value ∧ value < 2 ^ 31 then .ok value
  else .error .overflow

/- `va_arg`: the next slot. -/
def vaArg : List Nat → Except Fault (Nat × List Nat)
| [] => .error .arguments
| slot :: args => .ok (slot, args)

/- A slot read as a signed type of `bits` bits. -/
def asSigned
    (bits slot : Nat) : Int :=
  (BitVec.ofNat bits slot).toInt

/- `decimal_digit`. -/
def decimalDigit
    (ch : UInt8) : Option Nat :=
  if ch < code '0' ∨ code '9' < ch then none
  else some (ch.toNat - (code '0').toNat)

/- `enum int_len`. -/
inductive IntLen where
| default
| long
| longLong
| size
deriving DecidableEq, Repr

/- `read_unsigned`. -/
def readUnsigned
    (args : List Nat) :
    IntLen → Except Fault (Nat × List Nat)
| .long | .longLong | .size => do
    let (slot, args) ← vaArg args
    .ok (wrap 64 slot, args)
| .default => do
    let (slot, args) ← vaArg args
    .ok (wrap 32 slot, args)

/- `read_signed`. -/
def readSigned
    (args : List Nat) :
    IntLen → Except Fault (Int × List Nat)
| .long | .longLong | .size => do
    let (slot, args) ← vaArg args
    .ok (asSigned 64 slot, args)
| .default => do
    let (slot, args) ← vaArg args
    .ok (asSigned 32 slot, args)

/- The character of a digit. -/
def digitChar
    (uppercase : Bool)
    (digit : Nat) : UInt8 :=
  let digits :=
    if uppercase then text "0123456789ABCDEF"
    else text "0123456789abcdef"
  digits.getD digit 0

/-
  The loop of `format_unsigned`. The fuel is the size of the
  buffer for the digits.
-/
def formatLoop
    (base : Nat)
    (uppercase : Bool) : Nat → Nat → List UInt8
| 0, _ => []
| fuel + 1, value =>
    if value = 0 then []
    else
      digitChar uppercase (value % base) ::
        formatLoop base uppercase fuel (value / base)

/- `format_unsigned`: the digits from the lowest on. -/
def formatUnsigned
    (value base : Nat)
    (uppercase : Bool) : List UInt8 :=
  if value = 0 then [code '0']
  else formatLoop base uppercase 64 value

/- The fuel is enough for a word in any base. -/
theorem formatLoop_eq_digits
    {base : Nat}
    (hBase : 2 ≤ base)
    (uppercase : Bool)
    {fuel value : Nat}
    (hFuel : value < 2 ^ fuel) :
    formatLoop base uppercase fuel value =
      (Nat.digits base value).map (digitChar uppercase) := by
  induction fuel generalizing value with
  | zero =>
      have hZero : value = 0 := by simpa using hFuel
      rw [hZero, Nat.digits_zero]
      rfl
  | succ fuel ih =>
      by_cases hZero : value = 0
      · rw [formatLoop, if_pos hZero, hZero, Nat.digits_zero]
        rfl
      · have hNext : value / base < 2 ^ fuel := by
          have hHalf : value / base ≤ value / 2 :=
            Nat.div_le_div_left hBase (by decide)
          rw [Nat.pow_succ] at hFuel
          omega
        rw [formatLoop, if_neg hZero, ih hNext,
          Nat.digits_def' hBase (Nat.pos_of_ne_zero hZero),
          List.map_cons]

/- The digits of a word are those of its value. -/
theorem formatUnsigned_eq_digits
    {base value : Nat}
    (hBase : 2 ≤ base)
    (hValue : value < 2 ^ 64)
    (hPos : value ≠ 0)
    (uppercase : Bool) :
    formatUnsigned value base uppercase =
      (Nat.digits base value).map (digitChar uppercase) := by
  rw [formatUnsigned, if_neg hPos]
  exact formatLoop_eq_digits hBase uppercase hValue

end Stdio

end Whirliscope

------------------------------------------------------------
-- Strings and Numbers
------------------------------------------------------------

namespace Whirliscope

namespace Stdio

open ByteMemory

variable {σ : Type}

/- `emit_padded_string`. -/
def emitPaddedString
    (put : Put σ)
    (s : List UInt8)
    (width : Int)
    (leftAdjust : Bool)
    (out : Out σ) : Out σ :=
  let padding :=
    if width > s.length then (width - s.length).toNat else 0
  let out :=
    if leftAdjust then out
    else emitRepeat put (code ' ') padding out
  let out := emitAll put s out
  if leftAdjust then emitRepeat put (code ' ') padding out
  else out

/- `emit_number`. -/
def emitNumber
    (put : Put σ)
    (value : Nat)
    (negative : Bool)
    (base : Nat)
    (uppercase : Bool)
    (width precision : Int)
    (leftAdjust zeroPad : Bool)
    (sign : List UInt8)
    (out : Out σ) : Except Fault (Out σ) := do
  let digits :=
    if precision = 0 ∧ value = 0 then []
    else formatUnsigned value base uppercase
  let signLen : Int := if negative then 1 else 0
  let zeroes :=
    if precision > digits.length then
      (precision - digits.length).toNat
    else 0
  let totalLen ←
    checkInt
      (signLen + sign.length + zeroes + digits.length)
  let spaces :=
    if width > totalLen then (width - totalLen).toNat else 0
  let out :=
    if !leftAdjust && !zeroPad then
      emitRepeat put (code ' ') spaces out
    else out
  let out :=
    if negative then emitChar put (code '-') out else out
  let out := emitAll put sign out
  let out :=
    if !leftAdjust && zeroPad && decide (precision < 0) then
      emitRepeat put (code '0') spaces out
    else out
  let out := emitRepeat put (code '0') zeroes out
  -- The digits are stored from the lowest on.
  let out := emitAll put digits.reverse out
  .ok
    (if leftAdjust then emitRepeat put (code ' ') spaces out
    else out)

/-
  The loop of `vformat` over the characters of a string; the
  length is an `int`.
-/
def strLen
    (s : Bytes)
    (precision : Int) : Nat → Nat → Except Fault Nat
| 0, _ => .error .overflow
| fuel + 1, len =>
    if s len ≠ 0 ∧ (precision < 0 ∨ len < precision) then
      strLen s precision fuel (len + 1)
    else
      .ok len

/- The bytes of a string constant, with its terminator. -/
def constant
    (s : String) : Bytes :=
  fun index => (text s).getD index 0

end Stdio

end Whirliscope

------------------------------------------------------------
-- Directives
------------------------------------------------------------

namespace Whirliscope

namespace Stdio

open ByteMemory

/- What stands between a percent sign and its specifier. -/
structure Directive where
  leftAdjust : Bool
  zeroPad : Bool
  alternateForm : Bool
  width : Int
  precision : Int
  len : IntLen
deriving DecidableEq, Repr

/- The character that `fmt` points to. -/
def current
    (fmt : List UInt8) : UInt8 :=
  fmt.headD 0

/- The loop over the flags of a directive. -/
def parseFlags : List UInt8 → Directive → Directive × List UInt8
| [], d => (d, [])
| ch :: fmt, d =>
    if ch = code '-' then
      parseFlags fmt { d with leftAdjust := true }
    else if ch = code '0' then
      parseFlags fmt { d with zeroPad := true }
    else if ch = code '#' then
      parseFlags fmt { d with alternateForm := true }
    else
      (d, ch :: fmt)

/- The loops over the digits of a width or a precision. -/
def parseDigits :
    List UInt8 → Int → Except Fault (Int × List UInt8)
| [], value => .ok (value, [])
| ch :: fmt, value =>
    match decimalDigit ch with
    | none => .ok (value, ch :: fmt)
    | some digit => do
        let value ← checkInt (value * 10 + digit)
        parseDigits fmt value

def parseWidth
    (fmt : List UInt8)
    (args : List Nat)
    (d : Directive) :
    Except Fault (Directive × List UInt8 × List Nat) :=
  if current fmt = code '*' then do
    let (slot, args) ← vaArg args
    let width := asSigned 32 slot
    if width < 0 then
      let width ← checkInt (-width)
      .ok ({ d with leftAdjust := true, width := width },
        fmt.tail, args)
    else
      .ok ({ d with width := width }, fmt.tail, args)
  else do
    let (width, fmt) ← parseDigits fmt 0
    .ok ({ d with width := width }, fmt, args)

def parsePrecision
    (fmt : List UInt8)
    (args : List Nat)
    (d : Directive) :
    Except Fault (Directive × List UInt8 × List Nat) :=
  if current fmt = code '.' then
    if current fmt.tail = code '*' then do
      let (slot, args) ← vaArg args
      .ok ({ d with precision := asSigned 32 slot },
        fmt.tail.tail, args)
    else do
      let (precision, fmt) ← parseDigits fmt.tail 0
      .ok ({ d with precision := precision }, fmt, args)
  else
    .ok ({ d with precision := -1 }, fmt, args)

def parseLen
    (fmt : List UInt8)
    (d : Directive) : Directive × List UInt8 :=
  if current fmt = code 'l' then
    if current fmt.tail = code 'l' then
      ({ d with len := .longLong }, fmt.tail.tail)
    else
      ({ d with len := .long }, fmt.tail)
  else if current fmt = code 'z' then
    ({ d with len := .size }, fmt.tail)
  else
    ({ d with len := .default }, fmt)

/- The directive after a percent sign, up to its specifier. -/
def parseDirective
    (fmt : List UInt8)
    (args : List Nat) :
    Except Fault (Directive × List UInt8 × List Nat) := do
  let (d, fmt) :=
    parseFlags fmt ⟨false, false, false, 0, -1, .default⟩
  let (d, fmt, args) ← parseWidth fmt args d
  let (d, fmt, args) ← parsePrecision fmt args d
  let (d, fmt) := parseLen fmt d
  .ok (d, fmt, args)

end Stdio

end Whirliscope

------------------------------------------------------------
-- The Formatter
------------------------------------------------------------

namespace Whirliscope

namespace Stdio

open ByteMemory

variable {σ : Type}

section Lengths

open FaultProgram

theorem length_parseFlags
    (fmt : List UInt8)
    (d : Directive) :
    (parseFlags fmt d).2.length ≤ fmt.length := by
  induction fmt generalizing d with
  | nil => exact le_refl _
  | cons ch fmt ih =>
      have hNext := fun d => Nat.le_succ_of_le (ih d)
      rw [parseFlags]
      split_ifs
      · exact hNext _
      · exact hNext _
      · exact hNext _
      · exact le_refl _

/- No part of a directive moves back in the format. -/
theorem yields_parseDigits
    (fmt : List UInt8)
    (value : Int) :
    Yields (fun _ => True) (parseDigits fmt value)
      fun result => result.2.length ≤ fmt.length := by
  induction fmt generalizing value with
  | nil => exact .ok (le_refl _)
  | cons ch fmt ih =>
      rw [parseDigits]
      cases decimalDigit ch with
      | none => exact .ok (le_refl _)
      | some digit =>
          rw [yields_bind_iff]
          exact (yields_trivial _).mono fun value _ =>
            (ih value).mono fun _ hRest =>
              Nat.le_succ_of_le hRest

theorem yields_parseWidth
    (fmt : List UInt8)
    (args : List Nat)
    (d : Directive) :
    Yields (fun _ => True) (parseWidth fmt args d)
      fun result => result.2.1.length ≤ fmt.length := by
  have hTail : fmt.tail.length ≤ fmt.length := by simp
  rw [parseWidth]
  split_ifs with hStar
  · rw [yields_bind_iff]
    refine (yields_trivial _).mono ?_
    rintro ⟨slot, args⟩ -
    simp only
    split_ifs
    · rw [yields_bind_iff]
      exact (yields_trivial _).mono fun _ _ => .ok hTail
    · exact .ok hTail
  · rw [yields_bind_iff]
    exact (yields_parseDigits fmt 0).mono fun _ hRest =>
      .ok hRest

theorem yields_parsePrecision
    (fmt : List UInt8)
    (args : List Nat)
    (d : Directive) :
    Yields (fun _ => True) (parsePrecision fmt args d)
      fun result => result.2.1.length ≤ fmt.length := by
  have hTail : fmt.tail.length ≤ fmt.length := by simp
  have hTails : fmt.tail.tail.length ≤ fmt.length := by
    simp only [List.length_tail]
    omega
  rw [parsePrecision]
  split_ifs with hDot hStar
  · rw [yields_bind_iff]
    exact (yields_trivial _).mono fun _ _ => .ok hTails
  · rw [yields_bind_iff]
    exact (yields_parseDigits fmt.tail 0).mono
      fun _ hRest => .ok (hRest.trans hTail)
  · exact .ok (le_refl _)

theorem length_parseLen
    (fmt : List UInt8)
    (d : Directive) :
    (parseLen fmt d).2.length ≤ fmt.length := by
  rw [parseLen]
  split_ifs <;> simp only [List.length_tail] <;> omega

theorem length_parseDirective
    {fmt rest : List UInt8}
    {args args' : List Nat}
    {d : Directive}
    (hParse :
      parseDirective fmt args = .ok (d, rest, args')) :
    rest.length ≤ fmt.length := by
  have hYields :
      Yields (fun _ => True) (parseDirective fmt args)
        fun result => result.2.1.length ≤ fmt.length := by
    have hFlags :=
      length_parseFlags fmt
        ⟨false, false, false, 0, -1, .default⟩
    rw [parseDirective, yields_bind_iff]
    refine (yields_parseWidth _ _ _).mono fun _ hWidth => ?_
    rw [yields_bind_iff]
    refine (yields_parsePrecision _ _ _).mono
      fun _ hPrecision => .ok ?_
    exact (length_parseLen _ _).trans
      (hPrecision.trans (hWidth.trans hFlags))
  exact hYields.of_eq_ok hParse

end Lengths

/-
  The cases of the specifiers for unsigned numbers; `pre` is
  the prefix of the alternate form.
-/
def emitUnsigned
    (put : Put σ)
    (d : Directive)
    (base : Nat)
    (uppercase : Bool)
    (pre : String)
    (args : List Nat)
    (out : Out σ) : Except Fault (Out σ × List Nat) := do
  let (value, args) ← readUnsigned args d.len
  let sign :=
    if d.alternateForm && value != 0 then text pre else []
  let out ←
    emitNumber put value false base uppercase d.width
      d.precision d.leftAdjust d.zeroPad sign out
  .ok (out, args)

/- The `switch` of `vformat` over the specifier. -/
def emitDirective
    (put : Put σ)
    (memory : Bytes)
    (d : Directive)
    (spec : UInt8)
    (args : List Nat)
    (out : Out σ) : Except Fault (Out σ × List Nat) :=
  if spec = code 'c' then do
    let (slot, args) ← vaArg args
    .ok
      (emitPaddedString put [UInt8.ofNat slot] d.width
        d.leftAdjust out,
        args)
  else if spec = code 's' then do
    let (slot, args) ← vaArg args
    let pointer := wrap 64 slot
    let s :=
      if pointer = 0 then constant "(null)"
      else slice memory pointer
    let len ← strLen s d.precision (2 ^ 31) 0
    .ok
      (emitPaddedString put ((List.range len).map s) d.width
        d.leftAdjust out,
        args)
  else if spec = code 'd' ∨ spec = code 'i' then do
    let (signedValue, args) ← readSigned args d.len
    -- The negation wraps around to the absolute value.
    let out ←
      emitNumber put signedValue.natAbs
        (decide (signedValue < 0)) 10 false d.width
        d.precision d.leftAdjust d.zeroPad [] out
    .ok (out, args)
  else if spec = code 'u' then
    emitUnsigned put d 10 false "" args out
  else if spec = code 'b' then
    emitUnsigned put d 2 false "0b" args out
  else if spec = code 'B' then
    emitUnsigned put d 2 true "0B" args out
  else if spec = code 'x' then
    emitUnsigned put d 16 false "0x" args out
  else if spec = code 'X' then
    emitUnsigned put d 16 true "0X" args out
  else if spec = code 'o' then
    emitUnsigned put d 8 false "0" args out
  else if spec = code 'p' then do
    let (slot, args) ← vaArg args
    let out ←
      emitNumber put (wrap 64 slot) false 16 false d.width
        d.precision d.leftAdjust d.zeroPad (text "0x") out
    .ok (out, args)
  else
    .ok (emitChar put spec (emitChar put (code '%') out), args)

/-
  The loop of `vformat`. The end of the list is the
  terminator of the format.
-/
def vformatLoop
    (put : Put σ)
    (memory : Bytes)
    (fmt : List UInt8)
    (args : List Nat)
    (out : Out σ) : Except Fault (Out σ) :=
  match fmt with
  | [] => .ok out
  | ch :: fmt =>
      if ch = 0 then
        .ok out
      else if ch ≠ code '%' then
        vformatLoop put memory fmt args
          (emitChar put ch out)
      else if current fmt = code '%' then
        vformatLoop put memory fmt.tail args
          (emitChar put (code '%') out)
      else
        match hParse : parseDirective fmt args with
        | .error fault => .error fault
        | .ok (d, rest, args) =>
            if current rest = 0 then
              .ok out
            else
              match emitDirective put memory d (current rest)
                  args out with
              | .error fault => .error fault
              | .ok (out, args) =>
                  vformatLoop put memory rest.tail args out
termination_by fmt.length
decreasing_by
  · simp only [List.length_cons]
    omega
  · simp only [List.length_cons, List.length_tail]
    omega
  · have hRest := length_parseDirective hParse
    simp only [List.length_cons, List.length_tail]
    omega

/- The loop at a percent sign. -/
theorem vformatLoop_directive
    (put : Put σ)
    (memory : Bytes)
    {ch : UInt8}
    {fmt : List UInt8}
    (hEnd : ¬ ch = 0)
    (hPercent : ¬ ch ≠ code '%')
    (hAgain : ¬ current fmt = code '%')
    (args : List Nat)
    (out : Out σ) :
    vformatLoop put memory (ch :: fmt) args out =
      (parseDirective fmt args >>= fun next =>
        if current next.2.1 = 0 then .ok out
        else
          emitDirective put memory next.1 (current next.2.1)
              next.2.2 out >>= fun result =>
            vformatLoop put memory next.2.1.tail result.2
              result.1) := by
  rw [vformatLoop, if_neg hEnd, if_neg hPercent,
    if_neg hAgain]
  split
  · next fault hParse => rw [hParse]; rfl
  · next d rest args' hParse =>
      rw [hParse]
      simp only [bind, Except.bind]
      split_ifs
      · rfl
      · cases emitDirective put memory d (current rest) args'
          out <;> rfl

/- `vformat`. -/
def vformat
    (put : Put σ)
    (memory : Bytes)
    (fmt : List UInt8)
    (args : List Nat)
    (out : Out σ) : Except Fault (Int × Out σ) := do
  let out ← vformatLoop put memory fmt args out
  .ok (asSigned 32 out.count, out)

end Stdio

end Whirliscope
