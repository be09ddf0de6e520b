import Whirliscope.Library.FaultProgram

/-
  Programs that talk to devices through ports.

  The devices are any total function of an abstract state;
  each access may change them. What a program sends is noted,
  so that it can be said what a program sends whatever the
  devices answer.

  Key definitions include:
    * `Ports`, `Machine`, `PortProgram`
    * `poll`, `upTo`, `allUpTo`

  Main theorems:
    * `ensures_poll`, `ensures_poll_settled`
    * `ensures_upTo`, `ensures_allUpTo`
-/

------------------------------------------------------------
-- Ports
------------------------------------------------------------

namespace PortIO

open FaultProgram

/- The devices behind the ports, with states `δ`. -/
structure Ports (δ : Type) where
  inByte : Nat → δ → UInt8 × δ
  inWord : Nat → δ → UInt16 × δ
  outByte : Nat → UInt8 → δ → δ
  outWord : Nat → UInt16 → δ → δ

/- What a program sends to a port. -/
inductive Output where
| byte (port : Nat) (value : UInt8)
| word (port : Nat) (value : UInt16)
deriving DecidableEq

/- The devices after what was sent to them. -/
def Ports.send
    {δ : Type}
    (ports : Ports δ)
    (device : δ) : Output → δ
| .byte port value => ports.outByte port value device
| .word port value => ports.outWord port value device

def Ports.sendAll
    {δ : Type}
    (ports : Ports δ)
    (device : δ)
    (outputs : List Output) : δ :=
  outputs.foldl ports.send device

/- The devices, and what was sent to them so far. -/
structure Machine (δ : Type) where
  device : δ
  sent : List Output

abbrev PortProgram (δ α : Type) :=
  Program (Machine δ) Empty α

section

variable {δ α : Type}

def inb
    (ports : Ports δ)
    (port : Nat) : PortProgram δ UInt8 := do
  let machine ← get
  let answer := ports.inByte port machine.device
  set { machine with device := answer.2 }
  return answer.1

def inw
    (ports : Ports δ)
    (port : Nat) : PortProgram δ UInt16 := do
  let machine ← get
  let answer := ports.inWord port machine.device
  set { machine with device := answer.2 }
  return answer.1

def outb
    (ports : Ports δ)
    (port : Nat)
    (value : UInt8) : PortProgram δ Unit :=
  modify fun machine =>
    { device := ports.outByte port value machine.device
      sent := machine.sent ++ [.byte port value] }

def outw
    (ports : Ports δ)
    (port : Nat)
    (value : UInt16) : PortProgram δ Unit :=
  modify fun machine =>
    { device := ports.outWord port value machine.device
      sent := machine.sent ++ [.word port value] }

variable {stops : Empty → Prop}
variable {ports : Ports δ} {port : Nat} {device : δ}
variable {sent : List Output}

@[simp] theorem ensures_inb_iff
    (post : UInt8 → Machine δ → Prop) :
    Ensures stops (inb ports port) ⟨device, sent⟩ post ↔
      post (ports.inByte port device).1
        ⟨(ports.inByte port device).2, sent⟩ := by
  unfold inb
  rw [ensures_bind_iff, ensures_get_iff, ensures_bind_iff,
    ensures_set_iff, ensures_pure_iff]

@[simp] theorem ensures_inw_iff
    (post : UInt16 → Machine δ → Prop) :
    Ensures stops (inw ports port) ⟨device, sent⟩ post ↔
      post (ports.inWord port device).1
        ⟨(ports.inWord port device).2, sent⟩ := by
  unfold inw
  rw [ensures_bind_iff, ensures_get_iff, ensures_bind_iff,
    ensures_set_iff, ensures_pure_iff]

/- The machine after a list of outputs. -/
def Machine.after
    (machine : Machine δ)
    (ports : Ports δ)
    (outputs : List Output) : Machine δ where
  device := ports.sendAll machine.device outputs
  sent := machine.sent ++ outputs

@[simp] theorem Machine.after_after
    (machine : Machine δ)
    (first second : List Output) :
    (machine.after ports first).after ports second =
      machine.after ports (first ++ second) := by
  unfold Machine.after Ports.sendAll
  rw [List.foldl_append, List.append_assoc]

@[simp] theorem ensures_outb_iff
    (machine : Machine δ)
    (value : UInt8)
    (post : Unit → Machine δ → Prop) :
    Ensures stops (outb ports port value) machine post ↔
      post () (machine.after ports [.byte port value]) :=
  ensures_modify_iff _ _ _ _

@[simp] theorem ensures_outw_iff
    (machine : Machine δ)
    (value : UInt16)
    (post : Unit → Machine δ → Prop) :
    Ensures stops (outw ports port value) machine post ↔
      post () (machine.after ports [.word port value]) :=
  ensures_modify_iff _ _ _ _

/- What a program on ports answers; it always answers. -/
def outcome
    (program : PortProgram δ α)
    (machine : Machine δ) : α × Machine δ :=
  match program.run machine with
  | .ok result => result
  | .error fault => fault.elim

theorem outcome_spec
    {program : PortProgram δ α}
    {machine : Machine δ}
    {post : α → Machine δ → Prop}
    (hEnsures : Ensures stops program machine post) :
    post (outcome program machine).1
      (outcome program machine).2 := by
  apply hEnsures.of_returns
  unfold Returns outcome
  cases program.run machine with
  | ok result => rfl
  | error fault => exact fault.elim

end

end PortIO

------------------------------------------------------------
-- Loops
------------------------------------------------------------

namespace PortIO

open FaultProgram

section

variable {σ ε α : Type}

/- Try a step a number of times, until it has a result. -/
def poll
    (step : Program σ ε (Option α)) :
    Nat → Program σ ε (Option α)
| 0 => pure none
| tries + 1 => do
    match ← step with
    | some result => return some result
    | none => poll step tries

/- A loop over the indices below a bound. -/
def upTo
    (body : Nat → α → Program σ ε α) :
    Nat → α → Program σ ε α
| 0, value => pure value
| count + 1, value => do
    let middle ← upTo body count value
    body count middle

/-
  A loop over the indices from `first` on that ends with the
  first false answer.
-/
def allUpTo
    (body : Nat → α → Program σ ε (Bool × α)) :
    Nat → Nat → α → Program σ ε (Bool × α)
| _, 0, value => pure (true, value)
| first, count + 1, value => do
    let (ok, next) ← body first value
    if ok then
      allUpTo body (first + 1) count next
    else
      return (false, next)

variable {stops : ε → Prop} {state : σ}

/- What each try keeps holds when the polling ends. -/
theorem ensures_poll
    {step : Program σ ε (Option α)}
    (inv : σ → Prop)
    (found : α → σ → Prop)
    (hStep :
      ∀ state, inv state →
        Ensures stops step state fun result final =>
          match result with
          | none => inv final
          | some value => found value final)
    (tries : Nat)
    (hInv : inv state) :
    Ensures stops (poll step tries) state
      fun result final =>
        match result with
        | none => inv final
        | some value => found value final := by
  induction tries generalizing state with
  | zero =>
      unfold poll
      rw [ensures_pure_iff]
      exact hInv
  | succ tries ih =>
      unfold poll
      rw [ensures_bind_iff]
      apply (hStep state hInv).mono
      intro result middle hMiddle
      cases result with
      | none => exact ih hMiddle
      | some value =>
          dsimp only
          rw [ensures_pure_iff]
          exact hMiddle

/- Polling ends by the try that is known to have a result. -/
theorem ensures_poll_settled
    {step : Program σ ε (Option α)}
    (after : Nat → σ → Prop)
    (found : α → σ → Prop)
    {last : Nat}
    (hStep :
      ∀ done state, done ≤ last → after done state →
        Ensures stops step state fun result final =>
          match result with
          | none => done < last ∧ after (done + 1) final
          | some value => found value final)
    {tries done : Nat}
    (hTries : last < done + tries)
    (hDone : done ≤ last)
    (hAfter : after done state) :
    Ensures stops (poll step tries) state
      fun result final =>
        ∃ value, result = some value ∧ found value final := by
  induction tries generalizing state done with
  | zero => omega
  | succ tries ih =>
      unfold poll
      rw [ensures_bind_iff]
      apply (hStep done state hDone hAfter).mono
      intro result middle hMiddle
      cases result with
      | none =>
          exact ih (by omega) hMiddle.1 hMiddle.2
      | some value =>
          dsimp only
          rw [ensures_pure_iff]
          exact ⟨value, rfl, hMiddle⟩

theorem ensures_upTo
    {body : Nat → α → Program σ ε α}
    (inv : Nat → α → σ → Prop)
    {count : Nat}
    (hBody :
      ∀ index value state, index < count →
        inv index value state →
          Ensures stops (body index value) state
            (inv (index + 1)))
    {value : α}
    (hStart : inv 0 value state) :
    Ensures stops (upTo body count value) state
      (inv count) := by
  induction count with
  | zero =>
      unfold upTo
      rw [ensures_pure_iff]
      exact hStart
  | succ count ih =>
      unfold upTo
      rw [ensures_bind_iff]
      apply (ih fun index value state hLess =>
        hBody index value state (by omega)).mono
      intro middle final hMiddle
      exact hBody count middle final (by omega) hMiddle

theorem ensures_allUpTo
    {body : Nat → α → Program σ ε (Bool × α)}
    (inv failed : Nat → α → σ → Prop)
    {last : Nat}
    (hBody :
      ∀ index value state, index < last →
        inv index value state →
          Ensures stops (body index value) state
            fun result final =>
              if result.1 = true then
                inv (index + 1) result.2 final
              else
                failed index result.2 final)
    {first count : Nat}
    (hLast : first + count = last)
    {value : α}
    (hStart : inv first value state) :
    Ensures stops (allUpTo body first count value) state
      fun result final =>
        if result.1 = true then
          inv last result.2 final
        else
          ∃ index, first ≤ index ∧ index < last ∧
            failed index result.2 final := by
  induction count generalizing first value state with
  | zero =>
      unfold allUpTo
      rw [ensures_pure_iff, if_pos rfl, ← hLast]
      exact hStart
  | succ count ih =>
      unfold allUpTo
      rw [ensures_bind_iff]
      apply (hBody first value state (by omega) hStart).mono
      rintro ⟨ok, next⟩ middle hMiddle
      cases ok with
      | true =>
          rw [if_pos rfl] at hMiddle
          dsimp only
          rw [if_pos rfl]
          apply (ih (by omega) hMiddle).mono
          rintro ⟨ok, after⟩ final hFinal
          cases ok with
          | true => exact hFinal
          | false =>
              rcases hFinal with
                ⟨index, hFirst, hIndex, hFailed⟩
              exact ⟨index, by omega, hIndex, hFailed⟩
      | false =>
          rw [if_neg Bool.false_ne_true] at hMiddle
          dsimp only
          rw [if_neg Bool.false_ne_true, ensures_pure_iff,
            if_neg Bool.false_ne_true]
          exact ⟨first, Nat.le_refl _, by omega, hMiddle⟩

end

end PortIO

------------------------------------------------------------
-- Sending Words
------------------------------------------------------------

namespace PortIO

open FaultProgram

section

variable {δ : Type} {stops : Empty → Prop}
variable {ports : Ports δ} {port : Nat}

/- A loop that sends one word in each round. -/
theorem ensures_outWords
    (machine : Machine δ)
    (words : Nat → UInt16)
    (count : Nat) :
    Ensures stops
      (upTo (fun index (_ : Unit) =>
        outw ports port (words index)) count ())
      machine
      fun _ final =>
        final =
          machine.after ports
            ((List.range count).map fun index =>
              .word port (words index)) := by
  apply ensures_upTo fun index (_ : Unit) final =>
    final =
      machine.after ports
        ((List.range index).map fun index =>
          .word port (words index))
  · rintro index value state hLess rfl
    rw [ensures_outw_iff, Machine.after_after,
      List.range_succ, List.map_append]
    rfl
  · unfold Machine.after Ports.sendAll
    simp

end

end PortIO
