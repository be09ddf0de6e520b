import Whirliscope.Libc.Format
import Whirliscope.Library.RelatedRuns

/-
  Printing into a buffer and into a stream.

  The formatter does the same on every sink. Its characters
  on the sink that only collects them are the text; the
  buffer sink keeps a prefix of it, and the stream sink passes
  all of it on in chunks.

  Key definitions include:
    * `vsnprintf`, `vprintf`, `klogVprintf`
    * `emitted`

  Main theorems:
    * `vformatLoop_related`
    * `prints_exactly`
-/

------------------------------------------------------------
-- Buffers and Streams
------------------------------------------------------------

namespace Whirliscope

namespace Stdio

open ByteMemory

/- Store one byte. -/
def storeByte
    (memory : Bytes)
    (address : Nat)
    (value : UInt8) : Bytes :=
  Function.update memory address value

/-
  `buffer_put` for a buffer of `size` bytes. The bytes of the
  buffer are addressed from its start.
-/
def bufferPut
    (size : Nat) : Put Bytes :=
  fun ch out =>
    if size > 0 ∧ wrap 64 (out.count + 1) < size then
      storeByte out.ctx out.count ch
    else
      out.ctx

/- `PRINT_BUFFER_SIZE`. -/
def printBufferSize : Nat := 512

/-
  `struct stream_out`, and the chunks that were passed to
  `whrlibc_write`.
-/
structure StreamOut where
  buffer : Bytes
  len : Nat
  written : List (List UInt8)

/- The bytes of the buffer that are in use. -/
def StreamOut.pending
    (stream : StreamOut) : List UInt8 :=
  (List.range stream.len).map stream.buffer

/- `stream_flush`. -/
def streamFlush
    (stream : StreamOut) : StreamOut :=
  if stream.len > 0 then
    { stream with
      written := stream.written ++ [stream.pending]
      len := 0 }
  else
    stream

/- `stream_put`. -/
def streamPut : Put StreamOut :=
  fun ch out =>
    let stream :=
      if out.ctx.len = printBufferSize then
        streamFlush out.ctx
      else
        out.ctx
    { stream with
      buffer := storeByte stream.buffer stream.len ch
      len := stream.len + 1 }

/- `vprintf`, with the chunks that it writes. -/
def vprintf
    (stack memory : Bytes)
    (fmt : List UInt8)
    (args : List Nat) :
    Except Fault (Int × List (List UInt8)) := do
  let (written, out) ←
    vformat streamPut memory fmt args ⟨⟨stack, 0, []⟩, 0⟩
  .ok (written, (streamFlush out.ctx).written)

/- `vsnprintf`, with the buffer that it leaves. -/
def vsnprintf
    (buffer : Bytes)
    (n : Nat)
    (memory : Bytes)
    (fmt : List UInt8)
    (args : List Nat) : Except Fault (Int × Bytes) := do
  let (written, out) ←
    vformat (bufferPut n) memory fmt args ⟨buffer, 0⟩
  if n > 0 then
    let terminator :=
      if out.count < n then out.count else n - 1
    .ok (written, storeByte out.ctx terminator 0)
  else
    .ok (written, out.ctx)

/- `klog_vprintf`, with the bytes that go to the log. -/
def klogVprintf
    (stack memory : Bytes)
    (fmt : List UInt8)
    (args : List Nat) : Except Fault (List UInt8) := do
  let (len, buffer) ← vsnprintf stack 256 memory fmt args
  if len < 0 then
    .ok []
  else
    let written :=
      if len.toNat ≥ 256 then 256 - 1 else len.toNat
    .ok ((List.range written).map buffer)

/- The sink that collects the characters. -/
def textPut : Put (List UInt8) :=
  fun ch out => out.ctx ++ [ch]

/- The characters that the formatter emits. -/
def emitted
    (memory : Bytes)
    (fmt : List UInt8)
    (args : List Nat) : Except Fault (List UInt8) := do
  let out ← vformatLoop textPut memory fmt args ⟨[], 0⟩
  .ok out.ctx

end Stdio

end Whirliscope

------------------------------------------------------------
-- One Formatter, Two Sinks
------------------------------------------------------------

namespace Whirliscope

namespace Stdio

open ByteMemory RelatedRuns

section Sinks

variable {σ τ : Type} {put : Put σ} {put' : Put τ}
variable {rel : Out σ → Out τ → Prop}
variable {out : Out σ} {out' : Out τ}

/- Emitting a character keeps two sinks related. -/
def KeepsRelated
    (put : Put σ)
    (put' : Put τ)
    (rel : Out σ → Out τ → Prop) : Prop :=
  ∀ ch out out', rel out out' →
    rel (emitChar put ch out) (emitChar put' ch out')

/- Either branch keeps two sinks related. -/
theorem ite_related
    {condition : Prop}
    [Decidable condition]
    {left right : Out σ}
    {left' right' : Out τ}
    (hLeft : rel left left')
    (hRight : rel right right') :
    rel (if condition then left else right)
      (if condition then left' else right') := by
  split_ifs
  · exact hLeft
  · exact hRight

variable (hKeeps : KeepsRelated put put' rel)

include hKeeps

theorem emitRepeat_related
    (hRel : rel out out')
    (ch : UInt8)
    (count : Nat) :
    rel (emitRepeat put ch count out)
      (emitRepeat put' ch count out') := by
  induction count generalizing out out' with
  | zero => exact hRel
  | succ count ih => exact ih (hKeeps ch out out' hRel)

theorem emitAll_related
    (hRel : rel out out')
    (chars : List UInt8) :
    rel (emitAll put chars out)
      (emitAll put' chars out') := by
  induction chars generalizing out out' with
  | nil => exact hRel
  | cons ch chars ih => exact ih (hKeeps ch out out' hRel)

theorem emitPaddedString_related
    (hRel : rel out out')
    (s : List UInt8)
    (width : Int)
    (leftAdjust : Bool) :
    rel (emitPaddedString put s width leftAdjust out)
      (emitPaddedString put' s width leftAdjust out') := by
  cases leftAdjust with
  | false =>
      exact emitAll_related hKeeps
        (emitRepeat_related hKeeps hRel _ _) s
  | true =>
      exact emitRepeat_related hKeeps
        (emitAll_related hKeeps hRel s) _ _

theorem emitNumber_related
    (hRel : rel out out')
    (value : Nat)
    (negative : Bool)
    (base : Nat)
    (uppercase : Bool)
    (width precision : Int)
    (leftAdjust zeroPad : Bool)
    (sign : List UInt8) :
    Related rel
      (emitNumber put value negative base uppercase width
        precision leftAdjust zeroPad sign out)
      (emitNumber put' value negative base uppercase width
        precision leftAdjust zeroPad sign out') := by
  unfold emitNumber
  refine .bind_same fun totalLen _ => .ok ?_
  have hRepeat := fun {out out'} (h : rel out out') ch count =>
    emitRepeat_related hKeeps h ch count
  have hAll := fun {out out'} (h : rel out out') chars =>
    emitAll_related hKeeps h chars
  -- The steps of the code, from the last back to the first.
  refine ite_related (hRepeat ?_ _ _) ?_ <;>
    refine hAll (hRepeat ?_ _ _) _ <;>
    refine ite_related (hRepeat ?_ _ _) ?_ <;>
    refine hAll (ite_related (hKeeps _ _ _ ?_) ?_) _ <;>
    exact ite_related (hRepeat hRel _ _) hRel

/- Related sinks, and the same arguments left. -/
def RelatedRest
    (rel : Out σ → Out τ → Prop)
    (left : Out σ × List Nat)
    (right : Out τ × List Nat) : Prop :=
  rel left.1 right.1 ∧ left.2 = right.2

theorem emitUnsigned_related
    (hRel : rel out out')
    (d : Directive)
    (base : Nat)
    (uppercase : Bool)
    (pre : String)
    (args : List Nat) :
    Related (RelatedRest rel)
      (emitUnsigned put d base uppercase pre args out)
      (emitUnsigned put' d base uppercase pre args
        out') := by
  unfold emitUnsigned
  refine .bind_same fun _ _ => ?_
  exact (emitNumber_related hKeeps hRel _ _ _ _ _ _ _ _
    _).bind fun _ _ hNext => .ok ⟨hNext, rfl⟩

theorem emitDirective_related
    (hRel : rel out out')
    (memory : Bytes)
    (d : Directive)
    (spec : UInt8)
    (args : List Nat) :
    Related (RelatedRest rel)
      (emitDirective put memory d spec args out)
      (emitDirective put' memory d spec args out') := by
  have hPadded := fun s =>
    emitPaddedString_related hKeeps hRel s d.width
      d.leftAdjust
  have hUnsigned := fun base uppercase pre =>
    emitUnsigned_related hKeeps hRel d base uppercase pre
      args
  have hNumber := fun value negative base width precision =>
    emitNumber_related hKeeps hRel value negative base false
      width precision d.leftAdjust d.zeroPad
  unfold emitDirective
  apply Related.ite
  · exact .bind_same fun _ _ => .ok ⟨hPadded _, rfl⟩
  apply Related.ite
  · exact .bind_same fun _ _ => .bind_same fun _ _ =>
      .ok ⟨hPadded _, rfl⟩
  apply Related.ite
  · exact .bind_same fun _ _ =>
      (hNumber _ _ _ _ _ _).bind fun _ _ hNext =>
        .ok ⟨hNext, rfl⟩
  apply Related.ite (hUnsigned 10 false "")
  apply Related.ite (hUnsigned 2 false "0b")
  apply Related.ite (hUnsigned 2 true "0B")
  apply Related.ite (hUnsigned 16 false "0x")
  apply Related.ite (hUnsigned 16 true "0X")
  apply Related.ite (hUnsigned 8 false "0")
  apply Related.ite
  · exact .bind_same fun _ _ =>
      (hNumber _ _ _ _ _ _).bind fun _ _ hNext =>
        .ok ⟨hNext, rfl⟩
  · exact .ok ⟨hKeeps _ _ _ (hKeeps _ _ _ hRel), rfl⟩

theorem vformatLoop_related
    (hRel : rel out out')
    (memory : Bytes)
    (fmt : List UInt8)
    (args : List Nat) :
    Related rel (vformatLoop put memory fmt args out)
      (vformatLoop put' memory fmt args out') := by
  induction hLength : fmt.length using
      Nat.strong_induction_on
    generalizing fmt args out out' with
  | _ length ih =>
      subst hLength
      cases fmt with
      | nil =>
          rw [vformatLoop, vformatLoop]
          exact .ok hRel
      | cons ch fmt =>
          have hShorter :
              ∀ rest : List UInt8, rest.length ≤ fmt.length →
                ∀ args out out', rel out out' →
                  Related rel
                    (vformatLoop put memory rest args out)
                    (vformatLoop put' memory rest args
                      out') :=
            fun rest hRest args out out' hRel =>
              ih rest.length (Nat.lt_succ_of_le hRest) hRel
                rest args rfl
          have hTail :
              ∀ rest : List UInt8, rest.length ≤ fmt.length →
                rest.tail.length ≤ fmt.length := by
            intro rest hRest
            rw [List.length_tail]
            omega
          by_cases hEnd : ch = 0
          · rw [vformatLoop, vformatLoop, if_pos hEnd,
              if_pos hEnd]
            exact .ok hRel
          by_cases hPlain : ch ≠ code '%'
          · rw [vformatLoop, vformatLoop, if_neg hEnd,
              if_neg hEnd, if_pos hPlain, if_pos hPlain]
            exact hShorter fmt (le_refl _) args _ _
              (hKeeps ch out out' hRel)
          by_cases hAgain : current fmt = code '%'
          · rw [vformatLoop, vformatLoop, if_neg hEnd,
              if_neg hEnd, if_neg hPlain, if_neg hPlain,
              if_pos hAgain, if_pos hAgain]
            exact hShorter fmt.tail
              (hTail fmt (le_refl _)) args _ _
              (hKeeps _ out out' hRel)
          rw [vformatLoop_directive put memory hEnd hPlain
              hAgain,
            vformatLoop_directive put' memory hEnd hPlain
              hAgain]
          refine .bind_same fun next hParse => ?_
          refine .ite (.ok hRel) ?_
          refine (emitDirective_related hKeeps hRel memory
            next.1 (current next.2.1) next.2.2).bind ?_
          rintro ⟨left, args'⟩ ⟨right, _⟩ ⟨hNext, rfl⟩
          exact hShorter next.2.1.tail
            (hTail _ (length_parseDirective hParse)) args' left
            right hNext

end Sinks

end Stdio

end Whirliscope

------------------------------------------------------------
-- What the Sinks Keep
------------------------------------------------------------

namespace Whirliscope

namespace Stdio

open ByteMemory

/- The characters that fit in front of the terminator. -/
def HoldsPrefix
    (buffer : Bytes)
    (n : Nat)
    (chars : List UInt8)
    (final : Bytes) : Prop :=
  ∀ index, final index =
    if index < chars.length ∧ index + 1 < n then
      chars.getD index 0
    else
      buffer index

theorem HoldsPrefix.snoc
    {buffer final : Bytes}
    {n : Nat}
    {chars : List UInt8}
    (hHolds : HoldsPrefix buffer n chars final)
    (ch : UInt8) :
    HoldsPrefix buffer n (chars ++ [ch])
      (if chars.length + 1 < n then
        storeByte final chars.length ch
      else final) := by
  intro index
  rw [List.length_append, List.length_singleton]
  by_cases hLast : index = chars.length
  · subst hLast
    by_cases hFits : chars.length + 1 < n
    · simp [hFits, storeByte]
    · rw [if_neg hFits, if_neg (by omega), hHolds,
        if_neg (by omega)]
  · have hKept :
        (if chars.length + 1 < n then
          storeByte final chars.length ch
        else final) index = final index := by
      split_ifs
      · exact Function.update_of_ne hLast _ _
      · rfl
    rw [hKept, hHolds]
    by_cases hIn : index < chars.length ∧ index + 1 < n
    · rw [if_pos hIn, if_pos (by omega),
        List.getD_eq_getElem?_getD, List.getD_eq_getElem?_getD,
        List.getElem?_append_left hIn.1]
    · rw [if_neg hIn, if_neg (by omega)]

/- The buffer sink against the sink that collects. -/
def Buffered
    (buffer : Bytes)
    (n : Nat)
    (out : Out (List UInt8))
    (out' : Out Bytes) : Prop :=
  out.ctx.length < 2 ^ 64 →
    out'.count = out.ctx.length ∧
      HoldsPrefix buffer n out.ctx out'.ctx

theorem keepsRelated_bufferPut
    (buffer : Bytes)
    (n : Nat) :
    KeepsRelated textPut (bufferPut n)
      (Buffered buffer n) := by
  intro ch out out' hRel hBound
  simp only [emitChar, textPut, List.length_append,
    List.length_singleton] at hBound ⊢
  rcases hRel (by omega) with ⟨hCount, hHolds⟩
  have hNext :
      wrap 64 (out'.count + 1) = out.ctx.length + 1 := by
    rw [hCount]
    exact wrap_of_lt hBound
  refine ⟨hNext, ?_⟩
  have hPut :
      bufferPut n ch out' =
        if out.ctx.length + 1 < n then
          storeByte out'.ctx out.ctx.length ch
        else out'.ctx := by
    have hIff :
        (n > 0 ∧ out.ctx.length + 1 < n) ↔
          out.ctx.length + 1 < n := by
      omega
    rw [hCount] at hNext
    simp only [bufferPut, hCount, hNext, hIff]
  rw [hPut]
  exact hHolds.snoc ch

theorem StreamOut.pending_put
    (stream : StreamOut)
    (ch : UInt8) :
    StreamOut.pending
        { stream with
          buffer := storeByte stream.buffer stream.len ch
          len := stream.len + 1 } =
      stream.pending ++ [ch] := by
  simp only [pending, List.range_succ, List.map_append,
    List.map_singleton, storeByte, Function.update_self]
  congr 1
  apply List.map_congr_left
  intro index hIndex
  exact Function.update_of_ne
    (Nat.ne_of_lt (List.mem_range.mp hIndex)) _ _

/- A flush moves the pending bytes to what is written. -/
theorem streamFlush_flatten
    (stream : StreamOut) :
    (streamFlush stream).written.flatten =
        stream.written.flatten ++ stream.pending ∧
      (streamFlush stream).len = 0 := by
  rw [streamFlush]
  split_ifs with hPending
  · simp
  · have hEmpty : stream.len = 0 := by omega
    simp [StreamOut.pending, hEmpty]

/- The stream sink against the sink that collects. -/
def Streamed
    (out : Out (List UInt8))
    (out' : Out StreamOut) : Prop :=
  out.ctx.length < 2 ^ 64 →
    out'.count = out.ctx.length ∧
      out'.ctx.written.flatten ++ out'.ctx.pending =
        out.ctx ∧
      out'.ctx.len ≤ printBufferSize

theorem keepsRelated_streamPut :
    KeepsRelated textPut streamPut Streamed := by
  intro ch out out' hRel hBound
  simp only [emitChar, textPut, List.length_append,
    List.length_singleton] at hBound ⊢
  rcases hRel (by omega) with ⟨hCount, hText, hLen⟩
  have hRoom :
      ∃ stream : StreamOut,
        (if out'.ctx.len = printBufferSize then
          streamFlush out'.ctx
        else out'.ctx) = stream ∧
          stream.written.flatten ++ stream.pending =
            out.ctx ∧
          stream.len < printBufferSize := by
    refine ⟨_, rfl, ?_⟩
    split_ifs with hFull
    · rcases streamFlush_flatten out'.ctx with
        ⟨hWritten, hEmpty⟩
      have hPending :
          (streamFlush out'.ctx).pending = [] := by
        rw [StreamOut.pending, hEmpty]
        rfl
      rw [hWritten, hPending, hText, hEmpty]
      exact ⟨List.append_nil _, by decide⟩
    · exact ⟨hText, Nat.lt_of_le_of_ne hLen hFull⟩
  rcases hRoom with ⟨stream, hStream, hBefore, hFree⟩
  simp only [streamPut, hStream]
  refine ⟨?_, ?_, hFree⟩
  · rw [hCount]
    exact wrap_of_lt hBound
  · rw [StreamOut.pending_put, ← List.append_assoc, hBefore]

end Stdio

end Whirliscope

------------------------------------------------------------
-- What Is Printed
------------------------------------------------------------

namespace Whirliscope

namespace Stdio

open ByteMemory RelatedRuns

/- The length of a text is returned as an `int`. -/
theorem asSigned_length
    {length : Nat}
    (hLength : length < 2 ^ 31) :
    asSigned 32 length = length := by
  rw [asSigned, BitVec.toInt_eq_toNat_cond]
  simp only [BitVec.toNat_ofNat]
  omega

/- The loop on a sink, against the text. -/
theorem vformatLoop_of_emitted
    {σ : Type}
    {put : Put σ}
    {rel : Out (List UInt8) → Out σ → Prop}
    (hKeeps : KeepsRelated textPut put rel)
    {memory : Bytes}
    {fmt chars : List UInt8}
    {args : List Nat}
    (hText : emitted memory fmt args = .ok chars)
    {out : Out σ}
    (hStart : rel ⟨[], 0⟩ out) :
    ∃ final final',
      vformatLoop put memory fmt args out = .ok final' ∧
        rel final final' ∧ final.ctx = chars := by
  have hRelated :=
    vformatLoop_related hKeeps hStart memory fmt args
  rw [emitted] at hText
  cases hLoop :
      vformatLoop textPut memory fmt args ⟨[], 0⟩ with
  | error fault =>
      rw [hLoop] at hText
      cases hText
  | ok final =>
      rw [hLoop] at hText
      cases hText
      rcases hRelated.of_eq_ok hLoop with
        ⟨final', hRight, hRel⟩
      exact ⟨final, final', hRight, hRel, rfl⟩

/-
  A buffer of `n` bytes gets the start of the text, its
  terminator and nothing else.
-/
structure PrintsPrefix
    (buffer : Bytes)
    (n : Nat)
    (chars : List UInt8)
    (final : Bytes) : Prop where
  none : n = 0 → final = buffer
  start :
    ∀ index, index < min chars.length (n - 1) →
      chars[index]? = some (final index)
  terminator :
    0 < n → final (min chars.length (n - 1)) = 0
  beyond :
    ∀ index, min chars.length (n - 1) < index →
      final index = buffer index

/- The terminator follows the characters that fit. -/
theorem HoldsPrefix.terminate
    {buffer middle : Bytes}
    {n : Nat}
    {chars : List UInt8}
    (hHolds : HoldsPrefix buffer n chars middle)
    (hPos : 0 < n) :
    PrintsPrefix buffer n chars
      (storeByte middle (min chars.length (n - 1)) 0) where
  none := by omega
  start := by
    intro index hIndex
    rw [storeByte, Function.update_of_ne (by omega), hHolds,
      if_pos (by omega), List.getD_eq_getElem?_getD,
      List.getElem?_eq_getElem (by omega)]
    rfl
  terminator := fun _ => Function.update_self _ _ _
  beyond := by
    intro index hIndex
    rw [storeByte, Function.update_of_ne (by omega), hHolds,
      if_neg (by omega)]

theorem vsnprintf_of_emitted
    {memory : Bytes}
    {fmt chars : List UInt8}
    {args : List Nat}
    (hText : emitted memory fmt args = .ok chars)
    (hLength : chars.length < 2 ^ 31)
    (buffer : Bytes)
    (n : Nat) :
    ∃ final,
      vsnprintf buffer n memory fmt args =
          .ok (chars.length, final) ∧
        PrintsPrefix buffer n chars final := by
  have hStart :
      Buffered buffer n ⟨[], 0⟩ ⟨buffer, 0⟩ := by
    intro _
    refine ⟨rfl, fun index => ?_⟩
    rw [if_neg (by simp)]
  rcases vformatLoop_of_emitted
      (keepsRelated_bufferPut buffer n) hText hStart with
    ⟨final, final', hLoop, hRel, rfl⟩
  rcases hRel (by omega) with ⟨hCount, hHolds⟩
  have hWritten :
      vformat (bufferPut n) memory fmt args ⟨buffer, 0⟩ =
        .ok (final.ctx.length, final') := by
    rw [vformat, hLoop, ← asSigned_length hLength, ← hCount]
    rfl
  rw [vsnprintf, hWritten]
  by_cases hPos : n > 0
  · have hTerminator :
        (if final'.count < n then final'.count else n - 1) =
          min final.ctx.length (n - 1) := by
      rw [hCount]
      split_ifs <;> omega
    refine ⟨_, ?_, hHolds.terminate hPos⟩
    simp only [bind, Except.bind, if_pos hPos, hTerminator]
  · have hSame : final'.ctx = buffer := by
      funext index
      rw [hHolds, if_neg (by omega)]
    refine ⟨buffer, ?_, ?_⟩
    · simp only [bind, Except.bind, if_neg hPos, hSame]
    · exact
        { none := fun _ => rfl
          start := by omega
          terminator := fun h => absurd h hPos
          beyond := fun _ _ => rfl }

theorem vprintf_of_emitted
    {memory : Bytes}
    {fmt chars : List UInt8}
    {args : List Nat}
    (hText : emitted memory fmt args = .ok chars)
    (hLength : chars.length < 2 ^ 31)
    (stack : Bytes) :
    ∃ chunks,
      vprintf stack memory fmt args =
          .ok (chars.length, chunks) ∧
        chunks.flatten = chars := by
  have hStart :
      Streamed ⟨[], 0⟩ ⟨⟨stack, 0, []⟩, 0⟩ :=
    fun _ => ⟨rfl, rfl, Nat.zero_le _⟩
  rcases vformatLoop_of_emitted keepsRelated_streamPut hText
      hStart with
    ⟨final, final', hLoop, hRel, rfl⟩
  rcases hRel (by omega) with ⟨hCount, hAll, -⟩
  have hWritten :
      vformat streamPut memory fmt args
          ⟨⟨stack, 0, []⟩, 0⟩ =
        .ok (final.ctx.length, final') := by
    rw [vformat, hLoop, ← asSigned_length hLength, ← hCount]
    rfl
  refine ⟨(streamFlush final'.ctx).written, ?_, ?_⟩
  · rw [vprintf, hWritten]
    rfl
  · rw [(streamFlush_flatten final'.ctx).1, hAll]

/- The log gets as much of the text as its buffer holds. -/
theorem klogVprintf_of_emitted
    {memory : Bytes}
    {fmt chars : List UInt8}
    {args : List Nat}
    (hText : emitted memory fmt args = .ok chars)
    (hLength : chars.length < 2 ^ 31)
    (stack : Bytes) :
    klogVprintf stack memory fmt args =
      .ok (chars.take 255) := by
  rcases vsnprintf_of_emitted hText hLength stack 256 with
    ⟨final, hCall, hPrints⟩
  have hWritten :
      (if (chars.length : Int).toNat ≥ 256 then 256 - 1
        else (chars.length : Int).toNat) =
        min chars.length 255 := by
    rw [Int.toNat_natCast]
    split_ifs <;> omega
  have hNonneg : ¬ (chars.length : Int) < 0 := by omega
  rw [klogVprintf, hCall]
  simp only [bind, Except.bind, if_neg hNonneg, hWritten]
  congr 1
  apply List.ext_getElem?
  intro index
  by_cases hIn : index < min chars.length 255
  · rw [List.getElem?_map, List.getElem?_range hIn,
      List.getElem?_take_of_lt (by omega),
      hPrints.start index hIn]
    rfl
  · rw [List.getElem?_eq_none (by simp; omega),
      List.getElem?_eq_none (by simp; omega)]

/-
  The buffer keeps the start of the text that fits, with its
  terminator, and the stream passes all of the text on. Both
  return its length.
-/
theorem prints_exactly
    {memory : Bytes}
    {fmt chars : List UInt8}
    {args : List Nat}
    (hText : emitted memory fmt args = .ok chars)
    (hLength : chars.length < 2 ^ 31) :
    (∀ buffer n, ∃ final,
      vsnprintf buffer n memory fmt args =
          .ok (chars.length, final) ∧
        PrintsPrefix buffer n chars final) ∧
      ∀ stack, ∃ chunks,
        vprintf stack memory fmt args =
            .ok (chars.length, chunks) ∧
          chunks.flatten = chars :=
  ⟨vsnprintf_of_emitted hText hLength,
    vprintf_of_emitted hText hLength⟩

/- The format "%5d|%s" with 42 and a pointer to zero bytes. -/
theorem sampleFormat_prints :
    (∀ buffer n, ∃ final,
      vsnprintf buffer n zeros (text "%5d|%s") [42, 8] =
          .ok ((text "   42|").length, final) ∧
        PrintsPrefix buffer n (text "   42|") final) ∧
      ∀ stack, ∃ chunks,
        vprintf stack zeros (text "%5d|%s") [42, 8] =
            .ok ((text "   42|").length, chunks) ∧
          chunks.flatten = text "   42|" :=
  prints_exactly (by decide +kernel) (by decide)

end Stdio

end Whirliscope
