import Whirliscope.Library.ByteMemory
import Whirliscope.Library.Ring

/-
  The kernel log.

  The log is a circular array of characters with the position
  of the next one and the number of those kept. Where a copy
  of the last characters starts is found by two subtractions
  modulo the size of the array.

  Key definitions include:
    * `Klog`, `klogPutchar`, `klogWrite`
    * `klogCopyTail`
    * `Call`, `stream`

  Main theorem:
    * `klog_keeps_tail`
-/

------------------------------------------------------------
-- The Log
------------------------------------------------------------

namespace Whirliscope

namespace Kernel

open ByteMemory
open Ring

/- `KLOG_CAPACITY`. -/
def klogCapacity : Nat := 8192

/- The static variables of the log. -/
structure Klog where
  ring : Bytes
  head : Nat
  used : Nat
  total : Nat

/- The log before the first call. -/
def Klog.boot : Klog where
  ring := fun _ => 0
  head := 0
  used := 0
  total := 0

/- `klog_putchar`. -/
def klogPutchar
    (ch : UInt8)
    (log : Klog) : Klog where
  ring := Function.update log.ring log.head ch
  head := (log.head + 1) % klogCapacity
  used :=
    if log.used < klogCapacity then log.used + 1 else log.used
  total := wrap 64 (log.total + 1)

/- `klog_write`. -/
def klogWrite
    (s : Bytes) : Nat → Klog → Klog
| 0, log => log
| n + 1, log => klogPutchar (s n) (klogWrite s n log)

/- `klog_size`. -/
def klogSize
    (log : Klog) : Nat :=
  log.used

/- `klog_total_written`. -/
def klogTotalWritten
    (log : Klog) : Nat :=
  log.total

/- `klog_dropped`. -/
def klogDropped
    (log : Klog) : Nat :=
  if log.total > log.used then log.total - log.used else 0

/- The loop of `klog_copy_tail`. -/
def copyRing
    (log : Klog)
    (start : Nat) : Nat → Bytes → Bytes
| 0, dest => dest
| i + 1, dest =>
    Function.update (copyRing log start i dest) i
      (log.ring ((start + i) % klogCapacity))

/- `klog_copy_tail`, which writes from `dest` on. -/
def klogCopyTail
    (log : Klog)
    (dest : Bytes)
    (destSize : Nat) : Bytes × Nat :=
  if destSize = 0 ∨ log.used = 0 then
    (dest, 0)
  else
    let toCopy :=
      if log.used < destSize then log.used else destSize
    let oldest :=
      (log.head + klogCapacity - log.used) % klogCapacity
    let start := (oldest + log.used - toCopy) % klogCapacity
    (copyRing log start toCopy dest, toCopy)

/- The calls that add to the log. -/
inductive Call where
| putchar (ch : UInt8)
| write (s : Bytes) (n : Nat)

def Call.run
    (log : Klog) : Call → Klog
| .putchar ch => klogPutchar ch log
| .write s n => klogWrite s n log

def Call.chars : Call → List UInt8
| .putchar ch => [ch]
| .write s n => (List.range n).map s

/- The characters that a sequence of calls produces. -/
def stream
    (calls : List Call) : List UInt8 :=
  calls.flatMap Call.chars

/- The log after a sequence of calls. -/
def logAfter
    (calls : List Call) : Klog :=
  calls.foldl Call.run Klog.boot

end Kernel

end Whirliscope

------------------------------------------------------------
-- What the Log Keeps
------------------------------------------------------------

namespace Whirliscope

namespace Kernel

open ByteMemory
open Ring

/- The log holds the end of a stream of characters. -/
structure Logs
    (written : List UInt8)
    (log : Klog) : Prop where
  keeps : KeepsLast log.ring klogCapacity written
  head : log.head = written.length % klogCapacity
  used : log.used = min written.length klogCapacity
  total : log.total = wrap 64 written.length

theorem logs_boot :
    Logs [] Klog.boot where
  keeps := KeepsLast.nil _ _
  head := rfl
  used := rfl
  total := rfl

theorem Logs.putchar
    {written : List UInt8}
    {log : Klog}
    (hLogs : Logs written log)
    (ch : UInt8) :
    Logs (written ++ [ch]) (klogPutchar ch log) where
  keeps := by
    have hKeeps := hLogs.keeps.push ch (by decide)
    rwa [← hLogs.head] at hKeeps
  head := by
    simp only [klogPutchar, hLogs.head, List.length_append,
      List.length_singleton, Nat.mod_add_mod]
  used := by
    have hUsed := hLogs.used
    simp only [klogPutchar, List.length_append,
      List.length_singleton]
    split <;> omega
  total := by
    simp only [klogPutchar, hLogs.total, wrap,
      List.length_append, List.length_singleton,
      Nat.mod_add_mod]

theorem Logs.write
    {written : List UInt8}
    {log : Klog}
    (hLogs : Logs written log)
    (s : Bytes)
    (n : Nat) :
    Logs (written ++ (List.range n).map s)
      (klogWrite s n log) := by
  induction n with
  | zero => simpa [klogWrite] using hLogs
  | succ n hWritten =>
      have hNext := hWritten.putchar (s n)
      rwa [List.append_assoc, ← List.map_singleton,
        ← List.map_append, ← List.range_succ] at hNext

theorem Logs.call
    {written : List UInt8}
    {log : Klog}
    (hLogs : Logs written log)
    (call : Call) :
    Logs (written ++ call.chars) (call.run log) := by
  cases call with
  | putchar ch => exact hLogs.putchar ch
  | write s n => exact hLogs.write s n

theorem Logs.calls
    {written : List UInt8}
    {log : Klog}
    (hLogs : Logs written log)
    (calls : List Call) :
    Logs (written ++ stream calls)
      (calls.foldl Call.run log) := by
  induction calls generalizing written log with
  | nil => simpa [stream] using hLogs
  | cons call rest hRest =>
      have hNext := hRest (hLogs.call call)
      rwa [List.append_assoc] at hNext

/- The bytes that the loop stores are a window of the ring. -/
theorem copyRing_range
    (log : Klog)
    (start count : Nat)
    (dest : Bytes) :
    (List.range count).map (copyRing log start count dest) =
      window log.ring klogCapacity start count := by
  induction count with
  | zero => rfl
  | succ count hCount =>
      rw [List.range_succ, List.map_append, window_succ,
        ← hCount]
      congr 1
      · apply List.map_congr_left
        intro index hIndex
        exact Function.update_of_ne
          (Nat.ne_of_lt (List.mem_range.mp hIndex)) _ _
      · simp [copyRing]

/- The loop stores nothing further. -/
theorem copyRing_after
    (log : Klog)
    (start : Nat)
    (dest : Bytes)
    {count index : Nat}
    (hIndex : count ≤ index) :
    copyRing log start count dest index = dest index := by
  induction count with
  | zero => rfl
  | succ count hCount =>
      rw [copyRing, Function.update_of_ne (by omega)]
      exact hCount (by omega)

/- Where a copy of the last characters starts. -/
theorem Logs.start_eq
    {written : List UInt8}
    {log : Klog}
    (hLogs : Logs written log)
    {count : Nat}
    (hCount : count ≤ log.used) :
    ((log.head + klogCapacity - log.used) % klogCapacity +
          log.used - count) %
        klogCapacity =
      (written.length - count) % klogCapacity := by
  have hHead := hLogs.head
  have hUsed := hLogs.used
  unfold klogCapacity at *
  omega

theorem Logs.copyTail
    {written : List UInt8}
    {log : Klog}
    (hLogs : Logs written log)
    (dest : Bytes)
    (destSize : Nat) :
    (klogCopyTail log dest destSize).2 =
        min destSize (min written.length klogCapacity) ∧
      (List.range (klogCopyTail log dest destSize).2).map
          (klogCopyTail log dest destSize).1 =
        written.drop
          (written.length -
            (klogCopyTail log dest destSize).2) ∧
      ∀ index, (klogCopyTail log dest destSize).2 ≤ index →
        (klogCopyTail log dest destSize).1 index =
          dest index := by
  have hUsed := hLogs.used
  by_cases hNone : destSize = 0 ∨ log.used = 0
  · rw [klogCopyTail, if_pos hNone]
    refine ⟨by omega, ?_, fun _ _ => rfl⟩
    simp
  · have hCopied :
        (if log.used < destSize then log.used else destSize) =
          min destSize log.used := by
      split <;> omega
    simp only [klogCopyTail, hNone, if_false, hCopied]
    refine ⟨by rw [hUsed], ?_, ?_⟩
    · rw [copyRing_range, hLogs.start_eq (by omega),
        window_mod]
      exact hLogs.keeps.tail (by omega)
    · exact fun index hIndex =>
        copyRing_after log _ dest hIndex

theorem Logs.dropped
    {written : List UInt8}
    {log : Klog}
    (hLogs : Logs written log)
    (hLength : written.length < 2 ^ 64) :
    klogTotalWritten log = written.length ∧
      klogDropped log = written.length - klogSize log := by
  have hTotal := hLogs.total
  rw [wrap_of_lt hLength] at hTotal
  refine ⟨hTotal, ?_⟩
  rw [klogDropped, klogSize, hTotal]
  split <;> omega

/-
  After any sequence of calls the last characters written can
  be copied, as many as fit, and the counters are those of
  the characters written.
-/
theorem klog_keeps_tail
    (calls : List Call)
    (hLength : (stream calls).length < 2 ^ 64)
    (dest : Bytes)
    (destSize : Nat) :
    let log := logAfter calls
    let written := stream calls
    let copied :=
      min destSize (min written.length klogCapacity)
    let (stored, answer) := klogCopyTail log dest destSize
    answer = copied ∧
      (List.range copied).map stored =
        written.drop (written.length - copied) ∧
      (∀ index, copied ≤ index →
        stored index = dest index) ∧
      klogSize log = min written.length klogCapacity ∧
      klogTotalWritten log = written.length ∧
      klogDropped log = written.length - klogSize log := by
  have hLogs : Logs (stream calls) (logAfter calls) :=
    logs_boot.calls calls
  obtain ⟨hCount, hStored, hAfter⟩ :=
    hLogs.copyTail dest destSize
  obtain ⟨hTotal, hDropped⟩ := hLogs.dropped hLength
  rw [hCount] at hStored hAfter
  exact ⟨hCount, hStored, hAfter, hLogs.used, hTotal, hDropped⟩

/- Two characters of three, from a log of two calls. -/
theorem sampleLog_keeps_tail :
    let calls :=
      [Call.putchar 97, .write (fun i => UInt8.ofNat (98 + i)) 2]
    (stream calls).length < 2 ^ 64 ∧
      (klogCopyTail (logAfter calls) (fun _ => 0) 2).2 = 2 := by
  intro calls
  have hLength : (stream calls).length < 2 ^ 64 := by decide
  exact ⟨hLength,
    (klog_keeps_tail calls hLength (fun _ => 0) 2).1⟩

end Kernel

end Whirliscope
