import Mathlib.Tactic.Common

/-
  State-passing programs that may stop with a fault, and the
  rules of pre- and postconditions for them.

  `Ensures stops program state post` says that the run of
  `program` from `state` either returns with `post`, or stops
  with a fault allowed by `stops`. With no fault allowed this
  is total correctness; with every fault allowed it is partial
  correctness.

  Main declarations:
    * `Returns`, `Yields`, `Ensures`
    * `loop`
    * `ensures_bind_iff`
    * `ensures_loop`
-/

------------------------------------------------------------
-- Computations That May Fault
------------------------------------------------------------

namespace FaultProgram

variable {ε α β γ : Type}

/- A computation yields a value with `post` or stops. -/
inductive Yields
    (stops : ε → Prop) :
    Except ε α → (α → Prop) → Prop
| ok
    {value : α}
    {post : α → Prop}
    (hPost : post value) :
    Yields stops (.ok value) post
| error
    {fault : ε}
    {post : α → Prop}
    (hStops : stops fault) :
    Yields stops (.error fault) post

@[simp] theorem yields_ok_iff
    (stops : ε → Prop)
    (value : α)
    (post : α → Prop) :
    Yields stops (.ok value) post ↔ post value := by
  constructor
  · intro hYields
    cases hYields with
    | ok hPost => exact hPost
  · exact Yields.ok

@[simp] theorem yields_pure_iff
    (stops : ε → Prop)
    (value : α)
    (post : α → Prop) :
    Yields stops (pure value) post ↔ post value :=
  yields_ok_iff stops value post

@[simp] theorem yields_error_iff
    (stops : ε → Prop)
    (fault : ε)
    (post : α → Prop) :
    Yields stops (.error fault) post ↔ stops fault := by
  constructor
  · intro hYields
    cases hYields with
    | error hStops => exact hStops
  · exact Yields.error

@[simp] theorem yields_bind_iff
    (stops : ε → Prop)
    (first : Except ε α)
    (next : α → Except ε β)
    (post : β → Prop) :
    Yields stops (first >>= next) post ↔
      Yields stops first fun value =>
        Yields stops (next value) post := by
  cases first with
  | ok value =>
      rw [yields_ok_iff]
      exact Iff.rfl
  | error fault =>
      rw [yields_error_iff]
      exact yields_error_iff stops fault post

@[simp] theorem yields_map_iff
    (stops : ε → Prop)
    (change : α → β)
    (first : Except ε α)
    (post : β → Prop) :
    Yields stops (change <$> first) post ↔
      Yields stops first fun value =>
        post (change value) := by
  cases first with
  | ok value =>
      rw [yields_ok_iff]
      exact yields_ok_iff stops (change value) post
  | error fault =>
      rw [yields_error_iff]
      exact yields_error_iff stops fault post

theorem Yields.mono
    {stops : ε → Prop}
    {computation : Except ε α}
    {post weaker : α → Prop}
    (hYields : Yields stops computation post)
    (hWeaker : ∀ value, post value → weaker value) :
    Yields stops computation weaker := by
  cases hYields with
  | ok hPost => exact Yields.ok (hWeaker _ hPost)
  | error hStops => exact Yields.error hStops

/- When no fault is allowed, there is a value. -/
theorem Yields.exists_eq_ok
    {computation : Except ε α}
    {post : α → Prop}
    (hYields :
      Yields (fun _ => False) computation post) :
    ∃ value, computation = .ok value ∧ post value := by
  cases hYields with
  | ok hPost => exact ⟨_, rfl, hPost⟩
  | error hStops => exact hStops.elim

theorem Yields.of_eq_ok
    {stops : ε → Prop}
    {computation : Except ε α}
    {post : α → Prop}
    {value : α}
    (hYields : Yields stops computation post)
    (hValue : computation = .ok value) :
    post value := by
  rwa [hValue, yields_ok_iff] at hYields

/- Inversion of a sequence of two computations. -/
theorem bind_eq_ok_iff
    (first : Except ε α)
    (next : α → Except ε β)
    (result : β) :
    (first >>= next) = .ok result ↔
      ∃ value, first = .ok value ∧
        next value = .ok result := by
  cases first with
  | error fault =>
      simp [Bind.bind, Except.bind]
  | ok value =>
      simp [Bind.bind, Except.bind]

end FaultProgram

------------------------------------------------------------
-- Programs
------------------------------------------------------------

namespace FaultProgram

variable {σ ε α β γ : Type}

/- Programs over a state `σ` with faults `ε`. -/
abbrev Program (σ ε α : Type) :=
  StateT σ (Except ε) α

/- The run from `state` returns `value` in `final`. -/
def Returns
    (program : Program σ ε α)
    (state : σ)
    (value : α)
    (final : σ) : Prop :=
  program.run state = .ok (value, final)

/- The run from `state` returns with `post` or stops. -/
def Ensures
    (stops : ε → Prop)
    (program : Program σ ε α)
    (state : σ)
    (post : α → σ → Prop) : Prop :=
  Yields stops (program.run state) fun result =>
    post result.1 result.2

@[simp] theorem ensures_pure_iff
    (stops : ε → Prop)
    (value : α)
    (state : σ)
    (post : α → σ → Prop) :
    Ensures stops (pure value) state post ↔
      post value state :=
  yields_ok_iff stops (value, state) _

@[simp] theorem ensures_bind_iff
    (stops : ε → Prop)
    (first : Program σ ε α)
    (next : α → Program σ ε β)
    (state : σ)
    (post : β → σ → Prop) :
    Ensures stops (first >>= next) state post ↔
      Ensures stops first state fun value middle =>
        Ensures stops (next value) middle post := by
  unfold Ensures
  rw [StateT.run_bind, yields_bind_iff]

@[simp] theorem ensures_map_iff
    (stops : ε → Prop)
    (change : α → β)
    (first : Program σ ε α)
    (state : σ)
    (post : β → σ → Prop) :
    Ensures stops (change <$> first) state post ↔
      Ensures stops first state fun value final =>
        post (change value) final := by
  unfold Ensures
  rw [StateT.run_map, yields_map_iff]

@[simp] theorem ensures_get_iff
    (stops : ε → Prop)
    (state : σ)
    (post : σ → σ → Prop) :
    Ensures stops (get : Program σ ε σ) state post ↔
      post state state :=
  yields_ok_iff stops (state, state) _

@[simp] theorem ensures_set_iff
    (stops : ε → Prop)
    (state next : σ)
    (post : PUnit → σ → Prop) :
    Ensures stops (set next : Program σ ε PUnit)
        state post ↔
      post PUnit.unit next :=
  yields_ok_iff stops (PUnit.unit, next) _

@[simp] theorem ensures_modify_iff
    (stops : ε → Prop)
    (change : σ → σ)
    (state : σ)
    (post : PUnit → σ → Prop) :
    Ensures stops (modify change : Program σ ε PUnit)
        state post ↔
      post PUnit.unit (change state) :=
  yields_ok_iff stops (PUnit.unit, change state) _

/- A computation run inside a program keeps the state. -/
@[simp] theorem ensures_lift_iff
    (stops : ε → Prop)
    (computation : Except ε α)
    (state : σ)
    (post : α → σ → Prop) :
    Ensures stops
        (liftM computation : Program σ ε α) state post ↔
      Yields stops computation fun value =>
        post value state := by
  unfold Ensures
  cases computation with
  | ok value =>
      rw [yields_ok_iff]
      exact yields_ok_iff stops (value, state) _
  | error fault =>
      rw [yields_error_iff]
      exact yields_error_iff stops fault _

@[simp] theorem ensures_throw_iff
    (stops : ε → Prop)
    (fault : ε)
    (state : σ)
    (post : α → σ → Prop) :
    Ensures stops (throw fault : Program σ ε α)
        state post ↔
      stops fault :=
  yields_error_iff stops fault _

theorem ensures_ite_iff
    (stops : ε → Prop)
    (condition : Prop)
    [Decidable condition]
    (left right : Program σ ε α)
    (state : σ)
    (post : α → σ → Prop) :
    Ensures stops (if condition then left else right)
        state post ↔
      (condition → Ensures stops left state post) ∧
        (¬ condition → Ensures stops right state post) := by
  by_cases hCondition : condition <;>
    simp [hCondition]

theorem Ensures.mono
    {stops : ε → Prop}
    {program : Program σ ε α}
    {state : σ}
    {post weaker : α → σ → Prop}
    (hEnsures : Ensures stops program state post)
    (hWeaker :
      ∀ value final,
        post value final → weaker value final) :
    Ensures stops program state weaker :=
  Yields.mono hEnsures fun result hPost =>
    hWeaker result.1 result.2 hPost

/- Two facts about the same run. -/
theorem Ensures.and
    {stops allowed : ε → Prop}
    {program : Program σ ε α}
    {state : σ}
    {left right : α → σ → Prop}
    (hLeft : Ensures stops program state left)
    (hRight : Ensures allowed program state right) :
    Ensures stops program state fun value final =>
      left value final ∧ right value final := by
  unfold Ensures at *
  cases hRun : program.run state with
  | ok result =>
      rw [hRun, yields_ok_iff] at hLeft hRight
      exact Yields.ok ⟨hLeft, hRight⟩
  | error fault =>
      rw [hRun, yields_error_iff] at hLeft
      exact Yields.error hLeft

/- The same result when more faults are allowed. -/
theorem Ensures.allow
    {stops allowed : ε → Prop}
    {program : Program σ ε α}
    {state : σ}
    {post : α → σ → Prop}
    (hEnsures : Ensures stops program state post)
    (hAllowed : ∀ fault, stops fault → allowed fault) :
    Ensures allowed program state post := by
  unfold Ensures at *
  cases hRun : program.run state with
  | ok result =>
      rw [hRun, yields_ok_iff] at hEnsures
      exact Yields.ok hEnsures
  | error fault =>
      rw [hRun, yields_error_iff] at hEnsures
      exact Yields.error (hAllowed fault hEnsures)

theorem Ensures.of_returns
    {stops : ε → Prop}
    {program : Program σ ε α}
    {state final : σ}
    {value : α}
    {post : α → σ → Prop}
    (hEnsures : Ensures stops program state post)
    (hReturns : Returns program state value final) :
    post value final := by
  unfold Ensures at hEnsures
  rwa [hReturns, yields_ok_iff] at hEnsures

/- When no fault is allowed, the program returns. -/
theorem Ensures.exists_returns
    {program : Program σ ε α}
    {state : σ}
    {post : α → σ → Prop}
    (hEnsures :
      Ensures (fun _ => False) program state post) :
    ∃ value final,
      Returns program state value final ∧
        post value final := by
  unfold Ensures at hEnsures
  cases hRun : program.run state with
  | error fault =>
      rw [hRun, yields_error_iff] at hEnsures
      exact hEnsures.elim
  | ok result =>
      rw [hRun, yields_ok_iff] at hEnsures
      exact ⟨result.1, result.2, hRun, hEnsures⟩

/- A program has at most one outcome. -/
theorem Returns.unique
    {program : Program σ ε α}
    {state final final' : σ}
    {value value' : α}
    (hReturns : Returns program state value final)
    (hReturns' : Returns program state value' final') :
    value = value' ∧ final = final' := by
  unfold Returns at hReturns hReturns'
  rw [hReturns] at hReturns'
  simpa using hReturns'

/- The final state of a run, if the run returns. -/
def finalOr
    (other : σ) : Except ε (α × σ) → σ
| .ok (_, final) => final
| .error _ => other

theorem returns_finalOr
    {program : Program σ ε α}
    {state : σ}
    {value : α}
    (other : σ)
    (hValue :
      (program.run state).toOption.map Prod.fst =
        some value) :
    Returns program state value
      (finalOr other (program.run state)) := by
  unfold Returns
  cases hRun : program.run state with
  | error fault =>
      rw [hRun] at hValue
      cases hValue
  | ok result =>
      rw [hRun] at hValue
      injection hValue with hSame
      rw [← hSame]
      rfl

/- Inversion of a sequence of two programs. -/
theorem returns_bind_iff
    (first : Program σ ε α)
    (next : α → Program σ ε β)
    (state final : σ)
    (result : β) :
    Returns (first >>= next) state result final ↔
      ∃ value middle,
        Returns first state value middle ∧
          Returns (next value) middle result final := by
  unfold Returns
  rw [StateT.run_bind, bind_eq_ok_iff]
  constructor
  · rintro ⟨⟨value, middle⟩, hFirst, hNext⟩
    exact ⟨value, middle, hFirst, hNext⟩
  · rintro ⟨value, middle, hFirst, hNext⟩
    exact ⟨(value, middle), hFirst, hNext⟩

end FaultProgram

------------------------------------------------------------
-- Loops With Early Exit
------------------------------------------------------------

namespace FaultProgram

variable {σ ε α β γ : Type}

/-
  Run `body` until it exits with a result. A pass that yields
  `.inl` goes on with the new accumulator; when `fuel` passes
  have gone on, the loop ends with `out`.
-/
def loop
    {m : Type → Type}
    [Monad m]
    (out : m γ)
    (body : β → m (β ⊕ γ)) :
    Nat → β → m γ
| 0, _ => out
| fuel + 1, accumulator => do
    match ← body accumulator with
    | .inl next => loop out body fuel next
    | .inr result => pure result

/- A pass goes on with `invariant` or ends with `post`. -/
def Continues
    (invariant : β → σ → Prop)
    (post : γ → σ → Prop) :
    β ⊕ γ → σ → Prop
| .inl next, state => invariant next state
| .inr result, state => post result state

@[simp] theorem continues_inl
    (invariant : β → σ → Prop)
    (post : γ → σ → Prop)
    (next : β)
    (state : σ) :
    Continues invariant post (.inl next) state ↔
      invariant next state :=
  Iff.rfl

@[simp] theorem continues_inr
    (invariant : β → σ → Prop)
    (post : γ → σ → Prop)
    (result : γ)
    (state : σ) :
    Continues invariant post (.inr result) state ↔
      post result state :=
  Iff.rfl

/-
  The invariant rule for loops over programs. The invariant
  may count the passes that are left.
-/
theorem ensures_loop
    {stops : ε → Prop}
    {out : Program σ ε γ}
    {body : β → Program σ ε (β ⊕ γ)}
    {post : γ → σ → Prop}
    (invariant : Nat → β → σ → Prop)
    (hOut :
      ∀ accumulator state, invariant 0 accumulator state →
        Ensures stops out state post)
    (hStep :
      ∀ fuel accumulator state,
        invariant (fuel + 1) accumulator state →
          Ensures stops (body accumulator) state
            (Continues (invariant fuel) post))
    {fuel : Nat}
    {accumulator : β}
    {state : σ}
    (hStart : invariant fuel accumulator state) :
    Ensures stops (loop out body fuel accumulator)
      state post := by
  induction fuel generalizing accumulator state with
  | zero => exact hOut accumulator state hStart
  | succ fuel ih =>
      rw [loop, ensures_bind_iff]
      apply (hStep fuel accumulator state hStart).mono
      intro result final hResult
      cases result with
      | inl next => exact ih hResult
      | inr value =>
          exact (ensures_pure_iff stops value final
            post).mpr hResult

/-
  The rule for loops whose passes go down in a measure: with
  more fuel than the measure of the start, they end.
-/
theorem ensures_loop_measure
    {stops : ε → Prop}
    {out : Program σ ε γ}
    {body : β → Program σ ε (β ⊕ γ)}
    {post : γ → σ → Prop}
    (measure : β → Nat)
    (invariant : β → σ → Prop)
    (hStep :
      ∀ accumulator state, invariant accumulator state →
        Ensures stops (body accumulator) state
          (Continues
            (fun next final =>
              measure next < measure accumulator ∧
                invariant next final)
            post))
    {fuel : Nat}
    {accumulator : β}
    {state : σ}
    (hFuel : measure accumulator < fuel)
    (hStart : invariant accumulator state) :
    Ensures stops (loop out body fuel accumulator)
      state post := by
  apply ensures_loop fun left accumulator state =>
    measure accumulator < left ∧ invariant accumulator state
  · intro accumulator state hInvariant
    exact absurd hInvariant.1 (Nat.not_lt_zero _)
  · intro left accumulator state hInvariant
    apply (hStep accumulator state hInvariant.2).mono
    intro result final hResult
    cases result with
    | inl next =>
        exact ⟨Nat.lt_of_lt_of_le hResult.1
          (Nat.le_of_lt_succ hInvariant.1), hResult.2⟩
    | inr value => exact hResult
  · exact ⟨hFuel, hStart⟩

/- What some passes that go on lead to. -/
def passes
    (body : β → Program σ ε (β ⊕ γ)) :
    Nat → β → σ → Option (β × σ)
| 0, accumulator, state => some (accumulator, state)
| count + 1, accumulator, state =>
    match (body accumulator).run state with
    | .ok (.inl next, middle) => passes body count next middle
    | _ => none

/- The first pass, and the others after it. -/
theorem passes_succ_iff
    {body : β → Program σ ε (β ⊕ γ)}
    {count : Nat}
    {accumulator last : β}
    {state final : σ} :
    passes body (count + 1) accumulator state =
        some (last, final) ↔
      ∃ next middle,
        Returns (body accumulator) state (.inl next) middle ∧
          passes body count next middle =
            some (last, final) := by
  unfold Returns
  constructor
  · intro hPasses
    unfold passes at hPasses
    split at hPasses
    · rename_i next middle hRun
      exact ⟨next, middle, hRun, hPasses⟩
    · cases hPasses
  · rintro ⟨next, middle, hRun, hPasses⟩
    unfold passes
    rw [hRun]
    exact hPasses

/- A loop that exits after some of its passes. -/
theorem returns_loop_of_passes
    {out : Program σ ε γ}
    {body : β → Program σ ε (β ⊕ γ)}
    {count fuel : Nat}
    {accumulator last : β}
    {state middle final : σ}
    {value : γ}
    (hPasses :
      passes body count accumulator state =
        some (last, middle))
    (hExit :
      Returns (body last) middle (.inr value) final)
    (hFuel : count < fuel) :
    Returns (loop out body fuel accumulator) state value
      final := by
  obtain ⟨fuel, rfl⟩ : ∃ more, fuel = more + 1 :=
    ⟨fuel - 1, by omega⟩
  rw [loop, returns_bind_iff]
  induction count generalizing fuel accumulator state with
  | zero =>
      cases hPasses
      exact ⟨.inr value, final, hExit, rfl⟩
  | succ count ih =>
      rcases passes_succ_iff.mp hPasses with
        ⟨next, first, hFirst, hRest⟩
      obtain ⟨more, rfl⟩ : ∃ more, fuel = more + 1 :=
        ⟨fuel - 1, by omega⟩
      refine ⟨.inl next, first, hFirst, ?_⟩
      change Returns (loop out body (more + 1) next) _ _ _
      rw [loop, returns_bind_iff]
      exact ih hRest more (Nat.lt_of_succ_lt_succ hFuel)

/- What every pass keeps, counting the passes. -/
theorem passes_invariant
    {body : β → Program σ ε (β ⊕ γ)}
    (invariant : Nat → β → σ → Prop)
    (hStep :
      ∀ k accumulator state next middle,
        invariant k accumulator state →
        Returns (body accumulator) state (.inl next) middle →
          invariant (k + 1) next middle)
    {start count : Nat}
    {accumulator last : β}
    {state final : σ}
    (hStart : invariant start accumulator state)
    (hPasses :
      passes body count accumulator state =
        some (last, final)) :
    invariant (start + count) last final := by
  induction count generalizing start accumulator state with
  | zero =>
      cases hPasses
      exact hStart
  | succ count ih =>
      rcases passes_succ_iff.mp hPasses with
        ⟨next, middle, hFirst, hRest⟩
      have hNext :=
        ih (hStep start _ _ _ _ hStart hFirst) hRest
      rw [Nat.add_right_comm] at hNext
      exact hNext

/- The invariant rule for loops over computations. -/
theorem yields_loop
    {stops : ε → Prop}
    {out : Except ε γ}
    {body : β → Except ε (β ⊕ γ)}
    {post : γ → Prop}
    (invariant : Nat → β → Prop)
    (hOut :
      ∀ accumulator, invariant 0 accumulator →
        Yields stops out post)
    (hStep :
      ∀ fuel accumulator, invariant (fuel + 1) accumulator →
        Yields stops (body accumulator)
          (Sum.elim (invariant fuel) post))
    {fuel : Nat}
    {accumulator : β}
    (hStart : invariant fuel accumulator) :
    Yields stops (loop out body fuel accumulator) post := by
  induction fuel generalizing accumulator with
  | zero => exact hOut accumulator hStart
  | succ fuel ih =>
      rw [loop, yields_bind_iff]
      apply (hStep fuel accumulator hStart).mono
      intro result hResult
      cases result with
      | inl next => exact ih hResult
      | inr value =>
          exact (yields_pure_iff stops value post).mpr
            hResult

theorem yields_loop_measure
    {stops : ε → Prop}
    {out : Except ε γ}
    {body : β → Except ε (β ⊕ γ)}
    {post : γ → Prop}
    (measure : β → Nat)
    (invariant : β → Prop)
    (hStep :
      ∀ accumulator, invariant accumulator →
        Yields stops (body accumulator)
          (Sum.elim
            (fun next =>
              measure next < measure accumulator ∧
                invariant next)
            post))
    {fuel : Nat}
    {accumulator : β}
    (hFuel : measure accumulator < fuel)
    (hStart : invariant accumulator) :
    Yields stops (loop out body fuel accumulator) post := by
  apply yields_loop fun left accumulator =>
    measure accumulator < left ∧ invariant accumulator
  · intro accumulator hInvariant
    exact absurd hInvariant.1 (Nat.not_lt_zero _)
  · intro left accumulator hInvariant
    apply (hStep accumulator hInvariant.2).mono
    intro result hResult
    cases result with
    | inl next =>
        exact ⟨Nat.lt_of_lt_of_le hResult.1
          (Nat.le_of_lt_succ hInvariant.1), hResult.2⟩
    | inr value => exact hResult
  · exact ⟨hFuel, hStart⟩

end FaultProgram

------------------------------------------------------------
-- Invariants of Programs
------------------------------------------------------------

namespace FaultProgram

variable {σ ε α β γ : Type}

/- Every run keeps the invariant, or stops as allowed. -/
def Preserves
    (stops : ε → Prop)
    (invariant : σ → Prop)
    (program : Program σ ε α) : Prop :=
  ∀ state, invariant state →
    Ensures stops program state fun _ final => invariant final

/- Every run that returns keeps the invariant. -/
abbrev Keeps
    (invariant : σ → Prop)
    (program : Program σ ε α) : Prop :=
  Preserves (fun _ => True) invariant program

section

variable {stops : ε → Prop}
variable {invariant : σ → Prop}

theorem Preserves.of_pure
    (invariant : σ → Prop)
    (value : α) :
    Preserves stops invariant
      (pure value : Program σ ε α) := by
  intro state hState
  exact (ensures_pure_iff _ value state _).mpr hState

theorem Preserves.bind
    {first : Program σ ε α}
    {next : α → Program σ ε β}
    (hFirst : Preserves stops invariant first)
    (hNext :
      ∀ value, Preserves stops invariant (next value)) :
    Preserves stops invariant (first >>= next) := by
  intro state hState
  rw [ensures_bind_iff]
  apply (hFirst state hState).mono
  intro value middle hMiddle
  exact hNext value middle hMiddle

theorem Preserves.of_get
    (invariant : σ → Prop) :
    Preserves stops invariant (get : Program σ ε σ) := by
  intro state hState
  exact (ensures_get_iff _ state _).mpr hState

theorem Preserves.of_lift
    (invariant : σ → Prop)
    {computation : Except ε α}
    (hStops :
      Yields stops computation fun _ => True) :
    Preserves stops invariant
      (liftM computation : Program σ ε α) := by
  intro state hState
  rw [ensures_lift_iff]
  exact hStops.mono fun _ _ => hState

theorem Preserves.of_modify
    {change : σ → σ}
    (hChange :
      ∀ state, invariant state → invariant (change state)) :
    Preserves stops invariant
      (modify change : Program σ ε PUnit) := by
  intro state hState
  exact (ensures_modify_iff _ change state _).mpr
    (hChange state hState)

theorem Preserves.of_throw
    (invariant : σ → Prop)
    {fault : ε}
    (hFault : stops fault) :
    Preserves stops invariant
      (throw fault : Program σ ε α) := by
  intro state _
  exact (ensures_throw_iff _ fault state _).mpr hFault

theorem Preserves.ite
    {condition : Prop}
    [Decidable condition]
    {left right : Program σ ε α}
    (hLeft : Preserves stops invariant left)
    (hRight : Preserves stops invariant right) :
    Preserves stops invariant
      (if condition then left else right) := by
  split_ifs
  · exact hLeft
  · exact hRight

/- A loop keeps what its passes keep. -/
theorem Preserves.loop
    {out : Program σ ε γ}
    {body : β → Program σ ε (β ⊕ γ)}
    (hOut : Preserves stops invariant out)
    (hBody :
      ∀ accumulator,
        Preserves stops invariant (body accumulator))
    (fuel : Nat)
    (accumulator : β) :
    Preserves stops invariant
      (FaultProgram.loop out body fuel accumulator) := by
  intro state hState
  apply ensures_loop (fun _ _ final => invariant final)
  · exact fun _ final hFinal => hOut final hFinal
  · intro _ next final hFinal
    apply (hBody next final hFinal).mono
    intro result last hLast
    cases result with
    | inl _ => exact hLast
    | inr _ => exact hLast
  · exact hState

end

end FaultProgram

------------------------------------------------------------
-- Values of Programs
------------------------------------------------------------

namespace FaultProgram

variable {σ ε α β : Type}

/- Every value that a run returns is allowed. -/
def Answers
    (allowed : α → Prop)
    (program : Program σ ε α) : Prop :=
  ∀ state,
    Ensures (fun _ => True) program state
      fun value _ => allowed value

theorem yields_trivial
    (computation : Except ε α) :
    Yields (fun _ => True) computation fun _ => True := by
  cases computation with
  | ok value => exact Yields.ok trivial
  | error fault => exact Yields.error trivial

theorem ensures_trivial
    (program : Program σ ε α)
    (state : σ) :
    Ensures (fun _ => True) program state
      fun _ _ => True :=
  yields_trivial (program.run state)

theorem Answers.of_pure
    {allowed : α → Prop}
    {value : α}
    (hValue : allowed value) :
    Answers allowed (pure value : Program σ ε α) := by
  intro state
  exact (ensures_pure_iff _ value state _).mpr hValue

/- The value of a sequence is that of its last program. -/
theorem Answers.bind
    {allowed : β → Prop}
    {first : Program σ ε α}
    {next : α → Program σ ε β}
    (hNext : ∀ value, Answers allowed (next value)) :
    Answers allowed (first >>= next) := by
  intro state
  rw [ensures_bind_iff]
  apply (ensures_trivial first state).mono
  intro value middle _
  exact hNext value middle

theorem Answers.ite
    {allowed : α → Prop}
    {condition : Prop}
    [Decidable condition]
    {left right : Program σ ε α}
    (hLeft : Answers allowed left)
    (hRight : Answers allowed right) :
    Answers allowed (if condition then left else right) := by
  split_ifs
  · exact hLeft
  · exact hRight

end FaultProgram
