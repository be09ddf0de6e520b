import Mathlib.Tactic.SplitIfs
import Whirliscope.Libc.Conversions

/-
  The fields of the integer conversions.

  A field is laid out once, from the value alone. The
  formatter pads with blanks on the left only where the zero
  flag is absent, and with zeros only where the precision is
  absent, so with both it does not pad at all.

  Key definitions include:
    * `Conversion.value`, `Conversion.field`
    * `Conversion.Laid`
    * `emittedNumber`, `Conversion.emitted`

  Main theorem:
    * `number_field_iff`
-/

------------------------------------------------------------
-- Fields
------------------------------------------------------------

namespace Whirliscope

namespace Stdio

open ByteMemory

/- The size of the argument's type. -/
def lenBits : IntLen → Nat
| .default => 32
| _ => 64

/- The value of the argument. -/
def Conversion.value
    (c : Conversion)
    (slot : Nat) : Int :=
  if c.spec.signed then
    asSigned (lenBits c.len) slot
  else
    wrap (lenBits c.len) slot

def Conversion.signText
    (c : Conversion)
    (slot : Nat) : List UInt8 :=
  if c.value slot < 0 then [code '-'] else []

def Conversion.alternateText
    (c : Conversion)
    (slot : Nat) : List UInt8 :=
  if Flag.hash ∈ c.flags ∧ c.value slot ≠ 0 then
    text c.spec.alternate
  else
    []

/- A number in a base, with no zeros before it. -/
def numberText
    (base : Nat)
    (uppercase : Bool)
    (value : Nat) : List UInt8 :=
  if value = 0 then [code '0']
  else (Nat.digits base value).reverse.map (digitChar uppercase)

/- A number of at least `p` digits, of none for zero in zero. -/
def Conversion.digitsText
    (c : Conversion)
    (slot : Nat) : List UInt8 :=
  let number :=
    numberText c.spec.base c.spec.uppercase
      (c.value slot).natAbs
  match c.precision with
  | none => number
  | some p =>
      if p = 0 ∧ c.value slot = 0 then
        []
      else
        List.replicate (p - number.length) (code '0') ++ number

/- The length of the field without padding. -/
def Conversion.unpadded
    (c : Conversion)
    (slot : Nat) : Nat :=
  (c.signText slot).length + (c.alternateText slot).length +
    (c.digitsText slot).length

/- The field of a conversion. -/
def Conversion.field
    (c : Conversion)
    (slot : Nat) : List UInt8 :=
  let padding := c.width - c.unpadded slot
  if Flag.minus ∈ c.flags then
    c.signText slot ++ (c.alternateText slot ++
      (c.digitsText slot ++
        List.replicate padding (code ' ')))
  else if Flag.zero ∈ c.flags ∧ c.precision = none then
    c.signText slot ++ (c.alternateText slot ++
      (List.replicate padding (code '0') ++
        c.digitsText slot))
  else
    List.replicate padding (code ' ') ++
      (c.signText slot ++ (c.alternateText slot ++
        c.digitsText slot))

/- The value of a digit in any base up to sixteen. -/
def digitValue
    (ch : UInt8) : Nat :=
  if ch ≤ code '9' then ch.toNat - (code '0').toNat
  else if ch ≤ code 'F' then ch.toNat - (code 'A').toNat + 10
  else ch.toNat - (code 'a').toNat + 10

/- The number that some digits stand for. -/
def readBack
    (base : Nat)
    (digits : List UInt8) : Nat :=
  Nat.ofDigits base (digits.reverse.map digitValue)

/-
  The field without padding fits an `int`, and it fills the
  width if the zero flag comes with a precision, without the
  minus flag.
-/
def Conversion.Laid
    (c : Conversion)
    (slot : Nat) : Prop :=
  c.unpadded slot < 2 ^ 31 ∧
    (Flag.minus ∉ c.flags → Flag.zero ∈ c.flags →
      c.precision ≠ none → c.width ≤ c.unpadded slot)

theorem IntSpec.one_lt_base
    (spec : IntSpec) :
    1 < spec.base := by
  cases spec <;> decide

theorem IntSpec.base_le
    (spec : IntSpec) :
    spec.base ≤ 16 := by
  cases spec <;> decide

theorem digitValue_digitChar :
    ∀ uppercase : Bool, ∀ digit : Fin 16,
      digitValue (digitChar uppercase digit) = digit := by
  decide

/- A number reads back. -/
theorem readBack_numberText
    {base : Nat}
    (hBase : 1 < base)
    (hLarge : base ≤ 16)
    (uppercase : Bool)
    (value : Nat) :
    readBack base (numberText base uppercase value) = value := by
  rw [numberText]
  split
  next hZero =>
    rw [hZero]
    rfl
  next =>
    have hDigits :
        (Nat.digits base value).map
            (digitValue ∘ digitChar uppercase) =
          Nat.digits base value := by
      conv_rhs => rw [← List.map_id (Nat.digits base value)]
      apply List.map_congr_left
      intro digit hDigit
      have hLess := Nat.digits_lt_base hBase hDigit
      exact digitValue_digitChar uppercase ⟨digit, by omega⟩
    rw [readBack, ← List.map_reverse, List.reverse_reverse,
      List.map_map, hDigits, Nat.ofDigits_digits]

/- Zeros before a number do not change it. -/
theorem readBack_zeros
    (base count : Nat)
    (digits : List UInt8) :
    readBack base
        (List.replicate count (code '0') ++ digits) =
      readBack base digits := by
  rw [readBack, List.reverse_append, List.map_append,
    List.reverse_replicate, List.map_replicate]
  exact Nat.ofDigits_append_replicate_zero _

theorem Conversion.digitsText_readBack
    (c : Conversion)
    (slot : Nat) :
    readBack c.spec.base (c.digitsText slot) =
      (c.value slot).natAbs := by
  have hNumber :=
    readBack_numberText c.spec.one_lt_base c.spec.base_le
      c.spec.uppercase (c.value slot).natAbs
  rw [Conversion.digitsText]
  split
  next => exact hNumber
  next p hPrecision =>
    split
    next hNone =>
      rw [hNone.2]
      rfl
    next => rw [readBack_zeros, hNumber]

theorem Conversion.le_digitsText
    (c : Conversion)
    (slot : Nat) :
    ∀ p ∈ c.precision, p ≤ (c.digitsText slot).length := by
  intro p hPrecision
  rw [Conversion.digitsText, Option.mem_def.mp hPrecision]
  simp only
  split
  next hNone => exact Nat.le_of_eq hNone.1
  next =>
    rw [List.length_append, List.length_replicate]
    omega

theorem Conversion.length_field
    (c : Conversion)
    (slot : Nat) :
    (c.field slot).length = max c.width (c.unpadded slot) := by
  rw [Conversion.field, Conversion.unpadded]
  split_ifs <;>
    simp only [List.length_append, List.length_replicate] <;>
    omega

end Stdio

end Whirliscope

------------------------------------------------------------
-- Emission
------------------------------------------------------------

namespace Whirliscope

namespace Stdio

open ByteMemory

variable {σ : Type}

theorem emitAll_append
    (put : Put σ)
    (first second : List UInt8)
    (out : Out σ) :
    emitAll put (first ++ second) out =
      emitAll put second (emitAll put first out) := by
  induction first generalizing out with
  | nil => rfl
  | cons ch first hFirst => exact hFirst _

theorem emitRepeat_eq_emitAll
    (put : Put σ)
    (ch : UInt8)
    (count : Nat)
    (out : Out σ) :
    emitRepeat put ch count out =
      emitAll put (List.replicate count ch) out := by
  induction count generalizing out with
  | zero => rfl
  | succ count hCount => exact hCount _

theorem emitAll_textPut
    (chars : List UInt8)
    (out : Out (List UInt8)) :
    (emitAll textPut chars out).ctx = out.ctx ++ chars := by
  induction chars generalizing out with
  | nil => exact (List.append_nil _).symm
  | cons ch chars hChars =>
      rw [emitAll, hChars, emitChar, textPut, List.append_assoc]
      rfl

/- The characters that `emit_number` emits. -/
def emittedNumber
    (digits : List UInt8)
    (negative : Bool)
    (zeroes spaces : Nat)
    (leftAdjust zeroPad : Bool)
    (precision : Int)
    (sign : List UInt8) : List UInt8 :=
  (if !leftAdjust && !zeroPad then
      List.replicate spaces (code ' ')
    else []) ++
  ((if negative then [code '-'] else []) ++
  (sign ++
  ((if !leftAdjust && zeroPad && decide (precision < 0) then
      List.replicate spaces (code '0')
    else []) ++
  (List.replicate zeroes (code '0') ++
  (digits ++
    if leftAdjust then List.replicate spaces (code ' ')
    else [])))))

/- `emit_number` emits one text, if its length is an `int`. -/
theorem emitNumber_eq
    (put : Put σ)
    (value : Nat)
    (negative : Bool)
    (base : Nat)
    (uppercase : Bool)
    (width : Nat)
    (precision : Int)
    (leftAdjust zeroPad : Bool)
    (sign : List UInt8)
    (out : Out σ)
    {digits : List UInt8}
    (hDigits :
      digits =
        (if precision = 0 ∧ value = 0 then []
          else formatUnsigned value base uppercase).reverse)
    {zeroes total : Nat}
    (hZeroes :
      zeroes = (precision - digits.length).toNat)
    (hTotal :
      total =
        (if negative then 1 else 0) + sign.length + zeroes +
          digits.length) :
    emitNumber put value negative base uppercase width precision
        leftAdjust zeroPad sign out =
      if total < 2 ^ 31 then
        .ok (emitAll put
          (emittedNumber digits negative zeroes (width - total)
            leftAdjust zeroPad precision sign) out)
      else
        .error .overflow := by
  have hLength :
      (if precision = 0 ∧ value = 0 then []
          else formatUnsigned value base uppercase).length =
        digits.length := by
    rw [hDigits, List.length_reverse]
  rw [emitNumber]
  simp only [hLength, ← hDigits]
  have hZeroesEq :
      (if precision > digits.length then
          (precision - digits.length).toNat
        else 0) = zeroes := by
    split <;> omega
  have hTotalEq :
      (if negative then (1 : Int) else 0) + sign.length +
          zeroes + digits.length =
        total := by
    rw [hTotal]
    cases negative <;> simp
  rw [hZeroesEq, hTotalEq, checkInt]
  by_cases hFits : total < 2 ^ 31
  · have hSpaces :
        (if (width : Int) > total then
            ((width : Int) - total).toNat
          else 0) = width - total := by
      split <;> omega
    rw [if_pos (by omega), if_pos hFits]
    change Except.ok _ = _
    rw [hSpaces]
    simp only [emittedNumber, emitAll_append,
      emitRepeat_eq_emitAll]
    cases leftAdjust <;> cases zeroPad <;> cases negative <;>
      cases decide (precision < 0) <;> rfl
  · rw [if_neg (by omega), if_neg hFits]
    rfl

end Stdio

end Whirliscope

------------------------------------------------------------
-- Fields in Formats
------------------------------------------------------------

namespace Whirliscope

namespace Stdio

open ByteMemory

variable {σ : Type}

/- The number of a conversion, of no digits for zero in zero. -/
def Conversion.number
    (c : Conversion)
    (slot : Nat) : List UInt8 :=
  if c.precision = some 0 ∧ c.value slot = 0 then
    []
  else
    numberText c.spec.base c.spec.uppercase
      (c.value slot).natAbs

/- How many zeros the precision asks for. -/
def Conversion.zeroes
    (c : Conversion)
    (slot : Nat) : Nat :=
  c.precision.elim 0 fun p => p - (c.number slot).length

/- The characters that the code emits for a conversion. -/
def Conversion.emitted
    (c : Conversion)
    (slot : Nat) : List UInt8 :=
  emittedNumber (c.number slot) (decide (c.value slot < 0))
    (c.zeroes slot) (c.width - c.unpadded slot)
    c.directive.leftAdjust c.directive.zeroPad
    c.directive.precision (c.alternateText slot)

theorem Conversion.digitsText_eq
    (c : Conversion)
    (slot : Nat) :
    c.digitsText slot =
      List.replicate (c.zeroes slot) (code '0') ++
        c.number slot := by
  rw [Conversion.digitsText, Conversion.zeroes,
    Conversion.number]
  cases c.precision with
  | none => simp
  | some p =>
      by_cases hNone : p = 0 ∧ c.value slot = 0
      · simp [hNone]
      · simp [hNone]

/- What the `switch` does for the integer conversions. -/
theorem emitDirective_spec
    (put : Put σ)
    (memory : Bytes)
    (d : Directive)
    (spec : IntSpec)
    (args : List Nat)
    (out : Out σ) :
    emitDirective put memory d spec.char args out =
      if spec.signed then do
        let (signedValue, args) ← readSigned args d.len
        let out ←
          emitNumber put signedValue.natAbs
            (decide (signedValue < 0)) 10 false d.width
            d.precision d.leftAdjust d.zeroPad [] out
        .ok (out, args)
      else
        emitUnsigned put d spec.base spec.uppercase
          spec.alternate args out := by
  cases spec <;> rfl

theorem readSigned_cons
    (slot : Nat)
    (more : List Nat)
    (len : IntLen) :
    readSigned (slot :: more) len =
      .ok (asSigned (lenBits len) slot, more) := by
  cases len <;> rfl

theorem readUnsigned_cons
    (slot : Nat)
    (more : List Nat)
    (len : IntLen) :
    readUnsigned (slot :: more) len =
      .ok (wrap (lenBits len) slot, more) := by
  cases len <;> rfl

theorem emitUnsigned_of_read
    (put : Put σ)
    {d : Directive}
    (base : Nat)
    (uppercase : Bool)
    (pre : String)
    {args more : List Nat}
    {value : Nat}
    (hRead : readUnsigned args d.len = .ok (value, more))
    (out : Out σ) :
    emitUnsigned put d base uppercase pre args out =
      (emitNumber put value false base uppercase d.width
          d.precision d.leftAdjust d.zeroPad
          (if d.alternateForm && value != 0 then text pre
          else []) out >>= fun out =>
        .ok (out, more)) := by
  have hOk
      (next : Nat × List Nat →
        Except Fault (Out σ × List Nat)) :
      (Except.ok (value, more) >>= next) =
        next (value, more) :=
    rfl
  rw [emitUnsigned, hRead, hOk]

/- Every integer conversion is a call of `emit_number`. -/
theorem Conversion.emitDirective_eq
    (c : Conversion)
    (put : Put σ)
    (memory : Bytes)
    (slot : Nat)
    (more : List Nat)
    (out : Out σ) :
    emitDirective put memory c.directive c.spec.char
        (slot :: more) out =
      (emitNumber put (c.value slot).natAbs
          (decide (c.value slot < 0)) c.spec.base
          c.spec.uppercase c.width c.directive.precision
          c.directive.leftAdjust c.directive.zeroPad
          (c.alternateText slot) out >>= fun out =>
        .ok (out, more)) := by
  rw [emitDirective_spec]
  cases hSigned : c.spec.signed with
  | true =>
      have hValue :
          c.value slot = asSigned (lenBits c.len) slot :=
        if_pos hSigned
      have hPlain :
          c.spec.base = 10 ∧ c.spec.uppercase = false ∧
            c.spec.alternate = "" := by
        cases hSpec : c.spec <;>
          first
            | exact ⟨rfl, rfl, rfl⟩
            | (rw [hSpec] at hSigned; cases hSigned)
      obtain ⟨hBase, hCase, hAlternate⟩ := hPlain
      have hText : c.alternateText slot = [] := by
        rw [Conversion.alternateText, hAlternate]
        split <;> rfl
      rw [if_pos rfl, readSigned_cons, hValue, hBase, hCase,
        hText]
      rfl
  | false =>
      have hValue :
          c.value slot = (wrap (lenBits c.len) slot : Nat) :=
        if_neg (by rw [hSigned]; decide)
      have hNegative : decide (c.value slot < 0) = false := by
        rw [hValue]
        exact decide_eq_false (by omega)
      have hText :
          (if c.directive.alternateForm &&
              wrap (lenBits c.len) slot != 0 then
            text c.spec.alternate
          else
            []) = c.alternateText slot := by
        rw [Conversion.alternateText, hValue,
          Conversion.directive]
        simp
      have hRead := readUnsigned_cons slot more c.directive.len
      have hLen : c.directive.len = c.len := rfl
      have hWidth : c.directive.width = c.width := rfl
      rw [if_neg (by decide), emitUnsigned_of_read put _ _ _
        hRead, hNegative, hLen, hWidth, hText, hValue,
        Int.natAbs_natCast]

theorem wrap_lenBits_lt
    (len : IntLen)
    (slot : Nat) :
    wrap (lenBits len) slot < 2 ^ 64 := by
  refine Nat.lt_of_lt_of_le (wrap_lt _ _) ?_
  cases len <;> decide

theorem asSigned_lenBits_lt
    (len : IntLen)
    (slot : Nat) :
    (asSigned (lenBits len) slot).natAbs < 2 ^ 64 := by
  have hLow :=
    BitVec.le_toInt (BitVec.ofNat (lenBits len) slot)
  have hHigh :
      asSigned (lenBits len) slot < 2 ^ (lenBits len - 1) :=
    BitVec.toInt_lt
  change -2 ^ (lenBits len - 1) ≤
    asSigned (lenBits len) slot at hLow
  cases len <;> simp only [lenBits] at hLow hHigh ⊢ <;> omega

theorem Conversion.value_lt
    (c : Conversion)
    (slot : Nat) :
    (c.value slot).natAbs < 2 ^ 64 := by
  rw [Conversion.value]
  split
  next => exact asSigned_lenBits_lt c.len slot
  next =>
    rw [Int.natAbs_natCast]
    exact wrap_lenBits_lt c.len slot

theorem Conversion.precision_eq_zero_iff
    (c : Conversion) :
    c.directive.precision = 0 ↔ c.precision = some 0 := by
  rw [Conversion.directive]
  cases c.precision with
  | none => simp
  | some p => simp

theorem Conversion.number_eq
    (c : Conversion)
    (slot : Nat) :
    c.number slot =
      (if c.directive.precision = 0 ∧
            (c.value slot).natAbs = 0 then
          []
        else
          formatUnsigned (c.value slot).natAbs c.spec.base
            c.spec.uppercase).reverse := by
  rw [Conversion.number]
  simp only [c.precision_eq_zero_iff, Int.natAbs_eq_zero]
  split
  next => rfl
  next =>
    rw [numberText]
    by_cases hZero : (c.value slot).natAbs = 0
    · rw [if_pos hZero, hZero]
      rfl
    · rw [if_neg hZero,
        formatUnsigned_eq_digits c.spec.one_lt_base
          (c.value_lt slot) hZero,
        List.map_reverse]

theorem Conversion.unpadded_eq
    (c : Conversion)
    (slot : Nat) :
    c.unpadded slot =
      (if decide (c.value slot < 0) then 1 else 0) +
        (c.alternateText slot).length + c.zeroes slot +
        (c.number slot).length := by
  rw [Conversion.unpadded, c.digitsText_eq,
    List.length_append, List.length_replicate,
    Conversion.signText]
  by_cases hNegative : c.value slot < 0
  · simp only [hNegative, if_true, decide_true,
      List.length_singleton]
    omega
  · simp only [hNegative, if_false, decide_false,
      List.length_nil, Bool.false_eq_true]
    omega

/- The conversion at the start of a format. -/
theorem Conversion.vformatLoop_eq
    (c : Conversion)
    (put : Put σ)
    (memory : Bytes)
    (slot : Nat)
    (rest : List UInt8)
    (more : List Nat)
    (out : Out σ) :
    vformatLoop put memory (c.format ++ rest)
        (c.args slot ++ more) out =
      if c.unpadded slot < 2 ^ 31 then
        vformatLoop put memory rest more
          (emitAll put (c.emitted slot) out)
      else
        .error .overflow := by
  have hEnd : ¬ code '%' = 0 := by decide
  have hPercent : ¬ code '%' ≠ code '%' := not_not.mpr rfl
  have hZeroes :
      c.zeroes slot =
        (c.directive.precision -
          (c.number slot).length).toNat := by
    rw [Conversion.zeroes, Conversion.directive]
    cases c.precision with
    | none =>
        simp only [Option.elim_none]
        omega
    | some p =>
        simp only [Option.elim_some]
        omega
  have hSpec : ¬ current (c.spec.char :: rest) = 0 := by
    change ¬ c.spec.char = 0
    cases c.spec <;> decide
  have hCons :
      c.format ++ rest = code '%' :: (c.format ++ rest).tail :=
    rfl
  rw [hCons, vformatLoop_directive put memory hEnd hPercent
    (c.format_not_percent rest), parseDirective_append]
  change (if current (c.spec.char :: rest) = 0 then _ else _) =
    _
  rw [if_neg hSpec]
  change (emitDirective put memory c.directive c.spec.char
    (slot :: more) out >>= _) = _
  rw [c.emitDirective_eq put memory slot more out,
    emitNumber_eq put _ _ _ _ c.width _ _ _ _ out
      (c.number_eq slot) hZeroes (c.unpadded_eq slot)]
  split
  · rfl
  · rfl

/- The flags and the width alone decide whether it is padded. -/
theorem Conversion.emitted_eq_field_iff
    (c : Conversion)
    (slot : Nat) :
    c.emitted slot = c.field slot ↔
      (Flag.minus ∉ c.flags → Flag.zero ∈ c.flags →
        c.precision ≠ none → c.width ≤ c.unpadded slot) := by
  have hSign :
      (if decide (c.value slot < 0) then [code '-'] else []) =
        c.signText slot := by
    rw [Conversion.signText]
    simp
  have hPrecision :
      decide (c.directive.precision < 0) =
        decide (c.precision = none) := by
    rw [Conversion.directive]
    cases c.precision with
    | none => rfl
    | some p =>
        have hNot : ¬ (p : Int) < 0 := by omega
        simp [hNot]
  rw [Conversion.emitted, emittedNumber, Conversion.field, hSign,
    hPrecision, c.digitsText_eq]
  simp only [Conversion.directive]
  by_cases hMinus : Flag.minus ∈ c.flags
  · simp [hMinus]
  · by_cases hZero : Flag.zero ∈ c.flags
    · by_cases hNone : c.precision = none
      · have hZeroes : c.zeroes slot = 0 := by
          rw [Conversion.zeroes, hNone]
          rfl
        simp [hMinus, hZero, hNone, hZeroes]
      · have hIff (padding : Nat) (chars : List UInt8) :
            chars = List.replicate padding (code ' ') ++ chars ↔
              padding = 0 := by
          constructor
          · intro hSame
            have hLength := congrArg List.length hSame
            rw [List.length_append,
              List.length_replicate] at hLength
            omega
          · rintro rfl
            rfl
        rw [← Nat.sub_eq_zero_iff_le, ← hIff (_ - _)
          (c.signText slot ++ (c.alternateText slot ++
            (List.replicate (c.zeroes slot) (code '0') ++
              c.number slot)))]
        simp [hMinus, hZero, hNone]
    · simp [hMinus, hZero]

/-
  At any place of a format, with any sink, the field of an
  integer conversion is emitted exactly when it fits an `int`
  and does not have to be padded for a zero flag that comes
  with a precision.
-/
theorem number_field_iff
    (c : Conversion)
    (slot : Nat)
    (memory : Bytes) :
    ((∀ (σ : Type) (put : Put σ) (rest : List UInt8)
          (more : List Nat) (out : Out σ),
        vformatLoop put memory (c.format ++ rest)
            (c.args slot ++ more) out =
          vformatLoop put memory rest more
            (emitAll put (c.field slot) out)) ∧
      (c.field slot).length =
        max c.width (c.unpadded slot) ∧
      (∀ p ∈ c.precision,
        p ≤ (c.digitsText slot).length) ∧
      readBack c.spec.base (c.digitsText slot) =
        (c.value slot).natAbs) ↔
      c.Laid slot := by
  constructor
  · rintro ⟨hEmits, -⟩
    have hText :=
      hEmits (List UInt8) textPut [] [] ⟨[], 0⟩
    rw [c.vformatLoop_eq] at hText
    by_cases hFits : c.unpadded slot < 2 ^ 31
    · rw [if_pos hFits, vformatLoop, vformatLoop,
        Except.ok.injEq] at hText
      have hChars := congrArg Out.ctx hText
      rw [emitAll_textPut, emitAll_textPut] at hChars
      exact ⟨hFits, (c.emitted_eq_field_iff slot).mp
        (List.append_cancel_left hChars)⟩
    · rw [if_neg hFits, vformatLoop] at hText
      cases hText
  · rintro ⟨hFits, hPadded⟩
    refine ⟨?_, c.length_field slot, c.le_digitsText slot,
      c.digitsText_readBack slot⟩
    intro σ put rest more out
    rw [c.vformatLoop_eq, if_pos hFits,
      (c.emitted_eq_field_iff slot).mpr hPadded]

/- The conversion of "%08.3d". -/
def paddedInt : Conversion where
  flags := [.zero]
  width := 8
  widthStar := false
  precision := some 3
  precisionStar := false
  len := .default
  spec := .d
  widthFits := by decide
  precisionFits := by
    intro p hPrecision
    cases hPrecision
    decide

/- Five is not padded to the width of eight. -/
theorem precision_loses_padding :
    paddedInt.format = text "%08.3d" ∧
      paddedInt.field 5 = text "     005" ∧
      (emitted zeros paddedInt.format
          (paddedInt.args 5)).toOption =
        some (text "005") := by
  decide +kernel

end Stdio

end Whirliscope
