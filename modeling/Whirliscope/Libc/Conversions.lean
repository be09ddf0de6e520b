import Mathlib.Data.Nat.Digits.Lemmas
import Whirliscope.Libc.Printing

/-
  The integer conversions and how they are parsed.

  A conversion is given by its flags, its width, its precision
  and its length modifier, as they are written in a format.
  Each part of the text ends where the next one starts.

  Key definitions include:
    * `Conversion`, `Conversion.format`, `Conversion.args`
    * `EndsWidth`, `Conversion.directive`

  Main theorem:
    * `parseDirective_append`
-/

------------------------------------------------------------
-- Conversions
------------------------------------------------------------

namespace Whirliscope

namespace Stdio

open ByteMemory

inductive Flag where
| minus
| zero
| hash
deriving DecidableEq, Repr

def Flag.char : Flag → UInt8
| minus => code '-'
| zero => code '0'
| hash => code '#'

/- The integer conversions. -/
inductive IntSpec where
| d
| i
| u
| lowerX
| upperX
| o
| lowerB
| upperB
deriving DecidableEq, Repr

def IntSpec.char : IntSpec → UInt8
| d => code 'd'
| i => code 'i'
| u => code 'u'
| lowerX => code 'x'
| upperX => code 'X'
| o => code 'o'
| lowerB => code 'b'
| upperB => code 'B'

def IntSpec.signed : IntSpec → Bool
| d => true
| i => true
| _ => false

def IntSpec.base : IntSpec → Nat
| d => 10
| i => 10
| u => 10
| lowerX => 16
| upperX => 16
| o => 8
| lowerB => 2
| upperB => 2

def IntSpec.uppercase : IntSpec → Bool
| upperX => true
| upperB => true
| _ => false

/- What the hash flag puts before a value other than zero. -/
def IntSpec.alternate : IntSpec → String
| lowerX => "0x"
| upperX => "0X"
| o => "0"
| lowerB => "0b"
| upperB => "0B"
| _ => ""

/-
  A conversion with any flags in any order. A width of zero is
  no width, and either number may come from an argument.
-/
structure Conversion where
  flags : List Flag
  width : Nat
  widthStar : Bool
  precision : Option Nat
  precisionStar : Bool
  len : IntLen
  spec : IntSpec
  widthFits : width < 2 ^ 31
  precisionFits : ∀ p ∈ precision, p < 2 ^ 31

/- A number as written in a format, empty for zero. -/
def decimalText
    (value : Nat) : List UInt8 :=
  (Nat.digits 10 value).reverse.map (digitChar false)

/- A number in a format, or a star for it. -/
def amountText
    (star : Bool)
    (value : Nat) : List UInt8 :=
  if star then [code '*'] else decimalText value

def amountArgs
    (star : Bool)
    (value : Nat) : List Nat :=
  if star then [value] else []

def lenText : IntLen → List UInt8
| .default => []
| .long => [code 'l']
| .longLong => [code 'l', code 'l']
| .size => [code 'z']

def Conversion.precisionText
    (c : Conversion) : List UInt8 :=
  match c.precision with
  | none => []
  | some p => code '.' :: amountText c.precisionStar p

def Conversion.precisionArgs
    (c : Conversion) : List Nat :=
  match c.precision with
  | none => []
  | some p => amountArgs c.precisionStar p

/- The conversion as it stands in a format. -/
def Conversion.format
    (c : Conversion) : List UInt8 :=
  code '%' :: (c.flags.map Flag.char ++
    (amountText c.widthStar c.width ++
      (c.precisionText ++ (lenText c.len ++ [c.spec.char]))))

/- The slots that the conversion takes. -/
def Conversion.args
    (c : Conversion)
    (slot : Nat) : List Nat :=
  amountArgs c.widthStar c.width ++
    (c.precisionArgs ++ [slot])

end Stdio

end Whirliscope

------------------------------------------------------------
-- Parsing
------------------------------------------------------------

namespace Whirliscope

namespace Stdio

open ByteMemory

/- A character that ends the flags and the width. -/
structure EndsWidth
    (ch : UInt8) : Prop where
  flag : ∀ flag : Flag, ch ≠ flag.char
  star : ch ≠ code '*'
  percent : ch ≠ code '%'
  digit : decimalDigit ch = none

/- The directive that a conversion is parsed to. -/
def Conversion.directive
    (c : Conversion) : Directive where
  leftAdjust := decide (Flag.minus ∈ c.flags)
  zeroPad := decide (Flag.zero ∈ c.flags)
  alternateForm := decide (Flag.hash ∈ c.flags)
  width := c.width
  precision := c.precision.elim (-1) fun p => p
  len := c.len

theorem decimalDigit_digitChar :
    ∀ digit : Fin 10,
      decimalDigit (digitChar false digit) = some digit.val := by
  decide

theorem digitChar_ne :
    ∀ digit : Fin 10,
      digitChar false digit ≠ code '*' ∧
        digitChar false digit ≠ code '%' ∧
        digitChar false digit ≠ code '-' ∧
        digitChar false digit ≠ code '#' ∧
        (digit ≠ 0 → digitChar false digit ≠ code '0') := by
  decide

theorem parseFlags_append
    (flags : List Flag)
    {ch : UInt8}
    (rest : List UInt8)
    (hEnds : ∀ flag : Flag, ch ≠ flag.char)
    (d : Directive) :
    parseFlags (flags.map Flag.char ++ ch :: rest) d =
      ({ d with
          leftAdjust :=
            d.leftAdjust || decide (Flag.minus ∈ flags)
          zeroPad := d.zeroPad || decide (Flag.zero ∈ flags)
          alternateForm :=
            d.alternateForm || decide (Flag.hash ∈ flags) },
        ch :: rest) := by
  induction flags generalizing d with
  | nil =>
      have hMinus : ¬ ch = code '-' := hEnds .minus
      have hZero : ¬ ch = code '0' := hEnds .zero
      have hHash : ¬ ch = code '#' := hEnds .hash
      rw [List.map_nil, List.nil_append, parseFlags,
        if_neg hMinus, if_neg hZero, if_neg hHash]
      simp
  | cons flag flags hFlags =>
      rw [List.map_cons, List.cons_append]
      cases flag with
      | minus =>
          have hSame : Flag.minus.char = code '-' := rfl
          rw [parseFlags, if_pos hSame, hFlags]
          simp
      | zero =>
          have hSame : Flag.zero.char = code '0' := rfl
          rw [parseFlags, if_neg (by decide), if_pos hSame,
            hFlags]
          simp
      | hash =>
          have hSame : Flag.hash.char = code '#' := rfl
          rw [parseFlags, if_neg (by decide),
            if_neg (by decide), if_pos hSame, hFlags]
          simp

/- Digits read one after the other, after a value. -/
def digitsAfter
    (value : Nat)
    (digits : List Nat) : Nat :=
  digits.foldl (fun value digit => value * 10 + digit) value

theorem le_digitsAfter
    (value : Nat)
    (digits : List Nat) :
    value ≤ digitsAfter value digits := by
  induction digits generalizing value with
  | nil => exact Nat.le_refl _
  | cons digit digits hDigits =>
      have hNext := hDigits (value * 10 + digit)
      rw [digitsAfter, List.foldl_cons]
      exact Nat.le_trans (by omega) hNext

theorem digitsAfter_digits
    (value : Nat) :
    digitsAfter 0 (Nat.digits 10 value).reverse = value := by
  conv_rhs => rw [← Nat.ofDigits_digits 10 value]
  rw [digitsAfter, List.foldl_reverse, Nat.ofDigits_eq_foldr]
  congr 1
  funext digit rest
  simp only [Nat.cast_id]
  omega

theorem parseDigits_append
    (digits : List Nat)
    (hDigits : ∀ digit ∈ digits, digit < 10)
    {ch : UInt8}
    (rest : List UInt8)
    (hEnds : decimalDigit ch = none)
    (value : Nat)
    (hFits : digitsAfter value digits < 2 ^ 31) :
    parseDigits (digits.map (digitChar false) ++ ch :: rest)
        value =
      .ok (digitsAfter value digits, ch :: rest) := by
  induction digits generalizing value with
  | nil =>
      rw [List.map_nil, List.nil_append, parseDigits, hEnds]
      rfl
  | cons digit digits hNext =>
      obtain ⟨hDigit, hDigits⟩ :=
        List.forall_mem_cons.mp hDigits
      have hLess :
          value * 10 + digit < 2 ^ 31 :=
        Nat.lt_of_le_of_lt (le_digitsAfter _ digits) hFits
      have hCheck :
          checkInt ((value : Int) * 10 + digit) =
            .ok ((value * 10 + digit : Nat) : Int) := by
        rw [checkInt, if_pos (by omega)]
        rfl
      rw [List.map_cons, List.cons_append, parseDigits,
        decimalDigit_digitChar ⟨digit, hDigit⟩]
      simp only [hCheck]
      exact hNext hDigits _ hFits

theorem digits_reverse_lt
    (value : Nat) :
    ∀ digit ∈ (Nat.digits 10 value).reverse, digit < 10 :=
  fun _ hDigit =>
    Nat.digits_lt_base (by decide) (List.mem_reverse.mp hDigit)

/- A number in a format starts with a digit that is not zero. -/
theorem decimalText_cons
    {value : Nat}
    (hValue : value ≠ 0) :
    ∃ (digit : Fin 10) (more : List UInt8), digit ≠ 0 ∧
      decimalText value = digitChar false digit :: more := by
  have hSome : Nat.digits 10 value ≠ [] :=
    Nat.digits_ne_nil_iff_ne_zero.mpr hValue
  have hLast := Nat.getLast_digit_ne_zero 10 hValue
  have hLess :=
    Nat.digits_lt_base (by decide : 1 < 10)
      (List.getLast_mem hSome)
  refine ⟨⟨_, hLess⟩,
    (Nat.digits 10 value).dropLast.reverse.map
      (digitChar false), ?_, ?_⟩
  · exact fun hZero => hLast (congrArg Fin.val hZero)
  · rw [decimalText]
    conv_lhs =>
      rw [← List.dropLast_append_getLast hSome,
        List.reverse_append]
    rfl

/- What stands where a width may stand ends the flags. -/
theorem amountText_cons
    (star : Bool)
    (value : Nat)
    {ch : UInt8}
    (rest : List UInt8)
    (hEnds : EndsWidth ch) :
    ∃ first more,
      amountText star value ++ ch :: rest = first :: more ∧
        (∀ flag : Flag, first ≠ flag.char) ∧
        first ≠ code '%' ∧
        (star = false → first ≠ code '*') := by
  cases star with
  | true =>
      refine ⟨code '*', ch :: rest, rfl, ?_, by decide, nofun⟩
      intro flag
      cases flag <;> decide
  | false =>
      rw [amountText, if_neg (by decide)]
      by_cases hValue : value = 0
      · refine ⟨ch, rest, ?_, hEnds.flag, hEnds.percent,
          fun _ => hEnds.star⟩
        rw [hValue, decimalText, Nat.digits_zero]
        rfl
      · obtain ⟨digit, more, hDigit, hText⟩ :=
          decimalText_cons hValue
        obtain ⟨hStar, hPercent, hMinus, hHash, hZero⟩ :=
          digitChar_ne digit
        refine ⟨_, more ++ ch :: rest, by rw [hText]; rfl, ?_,
          hPercent, fun _ => hStar⟩
        intro flag
        cases flag with
        | minus => exact hMinus
        | zero => exact hZero hDigit
        | hash => exact hHash

/- A number in a format is read. -/
theorem parseDigits_decimalText
    {value : Nat}
    (hValue : value < 2 ^ 31)
    {ch : UInt8}
    (rest : List UInt8)
    (hEnds : decimalDigit ch = none) :
    parseDigits (decimalText value ++ ch :: rest) 0 =
      .ok (value, ch :: rest) := by
  have hDigits :=
    parseDigits_append _ (digits_reverse_lt value) rest hEnds 0
      (by rwa [digitsAfter_digits])
  rw [digitsAfter_digits] at hDigits
  exact hDigits

theorem parseWidth_append
    (star : Bool)
    {value : Nat}
    (hValue : value < 2 ^ 31)
    {ch : UInt8}
    (rest : List UInt8)
    (hEnds : EndsWidth ch)
    (args : List Nat)
    (d : Directive) :
    parseWidth (amountText star value ++ ch :: rest)
        (amountArgs star value ++ args) d =
      .ok ({ d with width := value }, ch :: rest, args) := by
  cases star with
  | true =>
      have hStar :
          current (amountText true value ++ ch :: rest) =
            code '*' :=
        rfl
      rw [parseWidth, if_pos hStar]
      change (if asSigned 32 value < 0 then _ else _) = _
      rw [asSigned_length hValue, if_neg (by omega)]
      rfl
  | false =>
      obtain ⟨first, more, hText, -, -, hStar⟩ :=
        amountText_cons false value rest hEnds
      rw [parseWidth, if_neg (by
        rw [hText]
        exact hStar rfl)]
      change (parseDigits (decimalText value ++ ch :: rest) 0 >>=
        _) = _
      rw [parseDigits_decimalText hValue rest hEnds.digit]
      rfl

theorem parsePrecision_append
    (c : Conversion)
    {ch : UInt8}
    (rest : List UInt8)
    (hEnds : EndsWidth ch)
    (hDot : ch ≠ code '.')
    (args : List Nat)
    (d : Directive) :
    parsePrecision (c.precisionText ++ ch :: rest)
        (c.precisionArgs ++ args) d =
      .ok ({ d with
          precision := c.precision.elim (-1) fun p => p },
        ch :: rest, args) := by
  cases hPrecision : c.precision with
  | none =>
      have hText : c.precisionText = [] := by
        rw [Conversion.precisionText, hPrecision]
      have hArgs : c.precisionArgs = [] := by
        rw [Conversion.precisionArgs, hPrecision]
      have hHere : ¬ current (ch :: rest) = code '.' := hDot
      rw [hText, hArgs, List.nil_append, List.nil_append,
        parsePrecision, if_neg hHere]
      rfl
  | some p =>
      have hFits := c.precisionFits p hPrecision
      have hText :
          c.precisionText =
            code '.' :: amountText c.precisionStar p := by
        rw [Conversion.precisionText, hPrecision]
      have hArgs :
          c.precisionArgs = amountArgs c.precisionStar p := by
        rw [Conversion.precisionArgs, hPrecision]
      rw [hText, hArgs]
      cases c.precisionStar with
      | true =>
          have hHere :
              current
                  (code '.' :: amountText true p ++
                    ch :: rest) =
                code '.' :=
            rfl
          have hStar :
              current
                  (code '.' :: amountText true p ++
                    ch :: rest).tail =
                code '*' :=
            rfl
          rw [parsePrecision, if_pos hHere, if_pos hStar]
          change Except.ok
            ({ d with precision := asSigned 32 p },
              ch :: rest, args) = _
          rw [asSigned_length hFits]
          rfl
      | false =>
          obtain ⟨first, more, hText, -, -, hStar⟩ :=
            amountText_cons false p rest hEnds
          have hTail :
              ¬ current
                  (code '.' :: amountText false p ++
                    ch :: rest).tail =
                code '*' := by
            rw [List.cons_append, List.tail_cons, hText]
            exact hStar rfl
          have hHere :
              current
                  (code '.' :: amountText false p ++
                    ch :: rest) =
                code '.' :=
            rfl
          rw [parsePrecision, if_pos hHere, if_neg hTail]
          change (parseDigits (decimalText p ++ ch :: rest) 0 >>=
            _) = _
          rw [parseDigits_decimalText hFits rest hEnds.digit]
          rfl

theorem parseLen_append
    (len : IntLen)
    (spec : IntSpec)
    (rest : List UInt8)
    (d : Directive) :
    parseLen (lenText len ++ spec.char :: rest) d =
      ({ d with len := len }, spec.char :: rest) := by
  cases len <;> cases spec <;> rfl

/- What comes after the precision ends the width. -/
theorem lenText_cons
    (len : IntLen)
    (spec : IntSpec)
    (rest : List UInt8) :
    ∃ ch more,
      lenText len ++ spec.char :: rest = ch :: more ∧
        EndsWidth ch ∧ ch ≠ code '.' := by
  have hEnds :
      ∀ ch : UInt8,
        ((∀ flag ∈ [Flag.minus, .zero, .hash],
            ch ≠ flag.char) ∧
          ch ≠ code '*' ∧ ch ≠ code '%' ∧
          decimalDigit ch = none ∧ ch ≠ code '.') →
        EndsWidth ch ∧ ch ≠ code '.' := by
    rintro ch ⟨hFlag, hStar, hPercent, hDigit, hDot⟩
    refine ⟨⟨fun flag => hFlag flag ?_, hStar, hPercent,
      hDigit⟩, hDot⟩
    cases flag <;> decide
  cases len <;> cases spec <;>
    exact ⟨_, _, rfl, hEnds _ (by decide)⟩

/- The precision, or what follows it, ends the width. -/
theorem Conversion.precisionText_cons
    (c : Conversion)
    {ch : UInt8}
    (tail : List UInt8)
    (hEnds : EndsWidth ch) :
    ∃ first rest,
      c.precisionText ++ ch :: tail = first :: rest ∧
        EndsWidth first := by
  rw [Conversion.precisionText]
  cases c.precision with
  | none => exact ⟨ch, tail, rfl, hEnds⟩
  | some p =>
      refine ⟨code '.', _, rfl, ?_, by decide, by decide,
        by decide⟩
      intro flag
      cases flag <;> decide

/- A conversion after its percent sign. -/
theorem Conversion.format_tail
    (c : Conversion)
    (rest : List UInt8) :
    (c.format ++ rest).tail =
      c.flags.map Flag.char ++
        (amountText c.widthStar c.width ++
          (c.precisionText ++
            (lenText c.len ++ c.spec.char :: rest))) := by
  simp [Conversion.format]

theorem Conversion.format_not_percent
    (c : Conversion)
    (rest : List UInt8) :
    ¬ current ((c.format ++ rest).tail) = code '%' := by
  obtain ⟨ch, tail, hTail, hEnds, -⟩ :=
    lenText_cons c.len c.spec rest
  obtain ⟨ch', tail', hTail', hEnds'⟩ :=
    c.precisionText_cons tail hEnds
  obtain ⟨first, more, hFirst, -, hPercent, -⟩ :=
    amountText_cons c.widthStar c.width tail' hEnds'
  rw [c.format_tail, hTail, hTail', hFirst]
  cases c.flags with
  | nil => exact hPercent
  | cons flag flags =>
      change ¬ flag.char = code '%'
      cases flag <;> decide

/- The directive of a conversion, parsed from its format. -/
theorem parseDirective_append
    (c : Conversion)
    (slot : Nat)
    (rest : List UInt8)
    (more : List Nat) :
    parseDirective ((c.format ++ rest).tail)
        (c.args slot ++ more) =
      .ok (c.directive, c.spec.char :: rest, slot :: more) := by
  obtain ⟨ch, tail, hTail, hEnds, hDot⟩ :=
    lenText_cons c.len c.spec rest
  have hArgs :
      c.args slot ++ more =
        amountArgs c.widthStar c.width ++
          (c.precisionArgs ++ slot :: more) := by
    simp [Conversion.args]
  obtain ⟨ch', tail', hTail', hEnds'⟩ :=
    c.precisionText_cons tail hEnds
  obtain ⟨first, rest', hFirst, hFlag, -, -⟩ :=
    amountText_cons c.widthStar c.width tail' hEnds'
  rw [c.format_tail, hTail, hArgs, parseDirective, hTail',
    hFirst, parseFlags_append c.flags rest' hFlag, ← hFirst]
  simp only [parseWidth_append c.widthStar c.widthFits tail'
    hEnds' (c.precisionArgs ++ slot :: more)]
  change (parsePrecision (ch' :: tail')
    (c.precisionArgs ++ slot :: more) _ >>= _) = _
  rw [← hTail', parsePrecision_append c tail hEnds hDot]
  change Except.ok _ = _
  rw [← hTail, parseLen_append]
  simp [Conversion.directive]

end Stdio

end Whirliscope
