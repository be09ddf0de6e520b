import Whirliscope.Drivers.Keyboard

/-
  Reading the keyboard while interrupts come in.

  A read takes three steps: it compares the indexes, copies
  an event and advances its index. An interrupt may come
  before any of them. The reader of characters repeats these
  steps until an event has a character.

  Key definitions include:
    * `Reader`, `System`, `step`, `Run`
    * `Observation`, `tally`
    * `During`, `Answered`

  Main theorem:
    * `keyboard_queue_exact`
-/

------------------------------------------------------------
-- Steps
------------------------------------------------------------

namespace Whirliscope

namespace Drivers

/- `keyboard_read_event` or `keyboard_read_char`. -/
inductive ReadCall where
| event
| char
deriving DecidableEq, Repr

/- Where the reader stands. -/
inductive Reader where
| idle
| comparing (call : ReadCall)
| copying (call : ReadCall)
| advancing (call : ReadCall) (event : KeyboardEvent)
deriving DecidableEq, Repr

structure System where
  keyboard : Keyboard
  reader : Reader

inductive Move where
| interrupt (byte : UInt8)
| call (call : ReadCall)
| proceed
deriving DecidableEq, Repr

/-
  What can be seen of a run: the events offered to the buffer,
  those taken out of it, and the answers of the reads. A read
  without an event answers `false`.
-/
inductive Observation where
| offered (event : KeyboardEvent)
| consumed (event : KeyboardEvent)
| answeredEvent (event : Option KeyboardEvent)
| answeredChar (ch : Option UInt8)
deriving DecidableEq, Repr

/- The answer of a read that found nothing. -/
def ReadCall.nothing : ReadCall → Observation
| event => .answeredEvent .none
| char => .answeredChar .none

/- `read_index = (read_index + 1) % KEYBOARD_BUFFER_SIZE`. -/
def Keyboard.advance
    (keyboard : Keyboard) : Keyboard :=
  { keyboard with
    readIndex := (keyboard.readIndex + 1) % keyboardBufferSize }

/- One step of the reader. -/
def proceed
    (keyboard : Keyboard) :
    Reader → Option (System × List Observation)
| .idle => none
| .comparing call =>
    if keyboard.readIndex = keyboard.writeIndex then
      some (⟨keyboard, .idle⟩, [call.nothing])
    else
      some (⟨keyboard, .copying call⟩, [])
| .copying call =>
    some
      (⟨keyboard, .advancing call
        (keyboard.buffer keyboard.readIndex)⟩, [])
| .advancing .event event =>
    some (⟨keyboard.advance, .idle⟩,
      [.consumed event, .answeredEvent (some event)])
| .advancing .char event =>
    if event.ch ≠ 0 then
      some (⟨keyboard.advance, .idle⟩,
        [.consumed event, .answeredChar (some event.ch)])
    else
      some (⟨keyboard.advance, .comparing .char⟩,
        [.consumed event])

/- One move, and what is seen of it. -/
def step
    (system : System) :
    Move → Option (System × List Observation)
| .interrupt byte =>
    some
      ({ system with
          keyboard := keyboardIrq system.keyboard byte },
        (offeredEvent system.keyboard byte).toList.map
          .offered)
| .call call =>
    if system.reader = .idle then
      some ({ system with reader := .comparing call }, [])
    else
      none
| .proceed => proceed system.keyboard system.reader

/- Runs, and what is seen of them. -/
inductive Run
    (start : System) :
    List Observation → System → Prop
| refl : Run start [] start
| step
    {seen observed : List Observation}
    {system next : System}
    (move : Move)
    (hRun : Run start seen system)
    (hStep : Drivers.step system move = some (next, observed)) :
    Run start (seen ++ observed) next

/- The events that the queue has taken in and given out. -/
structure Tally where
  accepted : List KeyboardEvent
  consumed : List KeyboardEvent

/- An event counts while fewer than 127 are pending. -/
def Tally.observe
    (tally : Tally) : Observation → Tally
| .offered event =>
    if tally.accepted.length - tally.consumed.length < 127 then
      { tally with accepted := tally.accepted ++ [event] }
    else
      tally
| .consumed event =>
    { tally with consumed := tally.consumed ++ [event] }
| .answeredEvent _ => tally
| .answeredChar _ => tally

def tally
    (seen : List Observation) : Tally :=
  seen.foldl Tally.observe ⟨[], []⟩

/- The moves of one read, from its call on. -/
inductive During
    (start : System)
    (call : ReadCall) :
    List Move → List Observation → System → Prop
| called
    (hIdle : start.reader = .idle) :
    During start call [] []
      { start with reader := .comparing call }
| step
    {moves : List Move}
    {seen observed : List Observation}
    {system next : System}
    (move : Move)
    (hDuring : During start call moves seen system)
    (hBusy : system.reader ≠ .idle)
    (hStep : Drivers.step system move = some (next, observed)) :
    During start call (moves ++ [move]) (seen ++ observed) next

def consumedIn
    (seen : List Observation) : List KeyboardEvent :=
  seen.filterMap fun
    | .consumed event => some event
    | _ => none

def answersIn
    (seen : List Observation) : List Observation :=
  seen.filter fun
    | .answeredEvent _ => true
    | .answeredChar _ => true
    | _ => false

/- What a read answers, and what it took and left for that. -/
def Answered
    (seen : List Observation)
    (pending : List KeyboardEvent) : ReadCall → Prop
| .event =>
    ∃ answer,
      answersIn seen = [.answeredEvent answer] ∧
        consumedIn seen = answer.toList ∧
        (answer = none → pending = [])
| .char =>
    ∃ skipped, (∀ event ∈ skipped, event.ch = 0) ∧
      ((answersIn seen = [.answeredChar none] ∧
          consumedIn seen = skipped ∧ pending = []) ∨
        ∃ event, event.ch ≠ 0 ∧
          answersIn seen = [.answeredChar (some event.ch)] ∧
          consumedIn seen = skipped ++ [event])

end Drivers

end Whirliscope

------------------------------------------------------------
-- What a Step Does
------------------------------------------------------------

namespace Whirliscope

namespace Drivers

open Ring

/- The reader's local variables agree with the queue. -/
def ReaderFits
    (pending : List KeyboardEvent) : Reader → Prop
| .idle => True
| .comparing _ => True
| .copying _ => pending ≠ []
| .advancing _ event => pending.head? = some event

structure System.Consistent
    (system : System) : Prop where
  indexed : system.keyboard.Indexed
  reader : ReaderFits system.keyboard.pending system.reader

/-
  What a step does to the pending events and the reader, and
  what is seen of it.
-/
inductive Effect
    (pending : List KeyboardEvent) :
    Reader → List Observation →
      List KeyboardEvent → Reader → Prop
| silent
    (reader : Reader) :
    Effect pending reader [] pending reader
| arrived
    (reader : Reader)
    (event : KeyboardEvent) :
    Effect pending reader [.offered event]
      (offerTo pending event) reader
| called
    (call : ReadCall) :
    Effect pending .idle [] pending (.comparing call)
| nothing
    (call : ReadCall)
    (hEmpty : pending = []) :
    Effect pending (.comparing call) [call.nothing] pending
      .idle
| found
    (call : ReadCall)
    (hPending : pending ≠ []) :
    Effect pending (.comparing call) [] pending
      (.copying call)
| copied
    (call : ReadCall)
    (event : KeyboardEvent)
    (hFirst : pending.head? = some event) :
    Effect pending (.copying call) [] pending
      (.advancing call event)
| tookEvent
    (event : KeyboardEvent)
    (rest : List KeyboardEvent)
    (hPending : pending = event :: rest) :
    Effect pending (.advancing .event event)
      [.consumed event, .answeredEvent (some event)] rest .idle
| tookChar
    (event : KeyboardEvent)
    (rest : List KeyboardEvent)
    (hPending : pending = event :: rest)
    (hChar : event.ch ≠ 0) :
    Effect pending (.advancing .char event)
      [.consumed event, .answeredChar (some event.ch)] rest
      .idle
| skipped
    (event : KeyboardEvent)
    (rest : List KeyboardEvent)
    (hPending : pending = event :: rest)
    (hChar : event.ch = 0) :
    Effect pending (.advancing .char event)
      [.consumed event] rest (.comparing .char)

theorem ReaderFits.offerTo
    {pending : List KeyboardEvent}
    {reader : Reader}
    (hFits : ReaderFits pending reader)
    (event : KeyboardEvent) :
    ReaderFits (offerTo pending event) reader := by
  rw [Drivers.offerTo]
  split
  next =>
    cases reader with
    | idle => trivial
    | comparing call => trivial
    | copying call => simp [ReaderFits]
    | advancing call first =>
        have hFirst : pending.head? = some first := hFits
        simp [ReaderFits, List.head?_append, hFirst]
  next => exact hFits

theorem Keyboard.Indexed.pending_eq_nil_iff
    {keyboard : Keyboard}
    (hIndexed : keyboard.Indexed) :
    keyboard.pending = [] ↔
      keyboard.readIndex = keyboard.writeIndex :=
  queued_eq_nil_iff keyboard.buffer hIndexed.readIndex
    hIndexed.writeIndex

/- The first event is in the slot of the reader's index. -/
theorem Keyboard.Indexed.pending_eq_cons
    {keyboard : Keyboard}
    (hIndexed : keyboard.Indexed)
    (hPending : keyboard.pending ≠ []) :
    keyboard.pending =
      keyboard.buffer keyboard.readIndex ::
        keyboard.advance.pending := by
  refine queued_pop keyboard.buffer hIndexed.readIndex
    hIndexed.writeIndex ?_
  exact fun hSame =>
    hPending (hIndexed.pending_eq_nil_iff.mpr hSame)

theorem Keyboard.Indexed.advance
    {keyboard : Keyboard}
    (hIndexed : keyboard.Indexed) :
    keyboard.advance.Indexed where
  readIndex := Nat.mod_lt _ (by decide)
  writeIndex := hIndexed.writeIndex

/- The event copied is the one that the index gives up. -/
theorem Keyboard.Indexed.pending_advance
    {keyboard : Keyboard}
    (hIndexed : keyboard.Indexed)
    {event : KeyboardEvent}
    (hFirst : keyboard.pending.head? = some event) :
    keyboard.pending = event :: keyboard.advance.pending := by
  have hCons := hIndexed.pending_eq_cons (by
    intro hEmpty
    rw [hEmpty] at hFirst
    cases hFirst)
  rw [hCons, List.head?_cons, Option.some.injEq] at hFirst
  rw [hCons, hFirst]

/- The reader's steps. -/
theorem System.Consistent.proceed
    {keyboard : Keyboard}
    {reader : Reader}
    {next : System}
    {observed : List Observation}
    (hConsistent : System.Consistent ⟨keyboard, reader⟩)
    (hStep :
      Drivers.proceed keyboard reader = some (next, observed)) :
    next.Consistent ∧
      Effect keyboard.pending reader observed
        next.keyboard.pending next.reader := by
  obtain ⟨hIndexed, hFits⟩ := hConsistent
  cases reader with
  | idle => cases hStep
  | comparing call =>
      by_cases hSame : keyboard.readIndex = keyboard.writeIndex
      · rw [Drivers.proceed, if_pos hSame] at hStep
        cases hStep
        exact ⟨⟨hIndexed, trivial⟩, .nothing call
          (hIndexed.pending_eq_nil_iff.mpr hSame)⟩
      · rw [Drivers.proceed, if_neg hSame] at hStep
        cases hStep
        have hPending : keyboard.pending ≠ [] := fun hEmpty =>
          hSame (hIndexed.pending_eq_nil_iff.mp hEmpty)
        exact ⟨⟨hIndexed, hPending⟩, .found call hPending⟩
  | copying call =>
      cases hStep
      have hFirst :
          keyboard.pending.head? =
            some (keyboard.buffer keyboard.readIndex) := by
        rw [hIndexed.pending_eq_cons hFits, List.head?_cons]
      exact ⟨⟨hIndexed, hFirst⟩, .copied call _ hFirst⟩
  | advancing call event =>
      have hPending := hIndexed.pending_advance hFits
      cases call with
      | event =>
          cases hStep
          exact ⟨⟨hIndexed.advance, trivial⟩,
            .tookEvent event _ hPending⟩
      | char =>
          by_cases hChar : event.ch ≠ 0
          · rw [Drivers.proceed, if_pos hChar] at hStep
            cases hStep
            exact ⟨⟨hIndexed.advance, trivial⟩,
              .tookChar event _ hPending hChar⟩
          · rw [Drivers.proceed, if_neg hChar] at hStep
            cases hStep
            exact ⟨⟨hIndexed.advance, trivial⟩,
              .skipped event _ hPending (not_not.mp hChar)⟩

/- The steps of the system. -/
theorem System.Consistent.step
    {system next : System}
    {move : Move}
    {observed : List Observation}
    (hConsistent : system.Consistent)
    (hStep : Drivers.step system move = some (next, observed)) :
    next.Consistent ∧
      Effect system.keyboard.pending system.reader observed
        next.keyboard.pending next.reader := by
  cases move with
  | interrupt byte =>
      cases hStep
      obtain ⟨hIndexed, hPending⟩ :=
        hConsistent.indexed.irq byte
      cases hOffered : offeredEvent system.keyboard byte with
      | none =>
          rw [hOffered] at hPending
          refine ⟨⟨hIndexed, ?_⟩, ?_⟩
          · rw [hPending]
            exact hConsistent.reader
          · rw [hPending]
            exact .silent _
      | some event =>
          rw [hOffered] at hPending
          refine ⟨⟨hIndexed, ?_⟩, ?_⟩
          · rw [hPending]
            exact hConsistent.reader.offerTo event
          · rw [hPending]
            exact .arrived _ event
  | call call =>
      by_cases hIdle : system.reader = .idle
      · rw [Drivers.step, if_pos hIdle] at hStep
        cases hStep
        refine ⟨⟨hConsistent.indexed, trivial⟩, ?_⟩
        rw [hIdle]
        exact .called call
      · rw [Drivers.step, if_neg hIdle] at hStep
        cases hStep
  | proceed => exact hConsistent.proceed hStep

theorem keyboardInit_consistent
    (keyboard : Keyboard) :
    System.Consistent ⟨keyboardInit keyboard, .idle⟩ where
  indexed := keyboardInit_indexed keyboard
  reader := trivial

end Drivers

end Whirliscope

------------------------------------------------------------
-- Runs
------------------------------------------------------------

namespace Whirliscope

namespace Drivers

/- What was taken in is what was given out and what is left. -/
def Tally.Balanced
    (tally : Tally)
    (pending : List KeyboardEvent) : Prop :=
  tally.accepted = tally.consumed ++ pending

theorem Tally.Balanced.offered
    {tally : Tally}
    {pending : List KeyboardEvent}
    (hBalanced : tally.Balanced pending)
    (event : KeyboardEvent) :
    (tally.observe (.offered event)).Balanced
      (offerTo pending event) := by
  have hLength :
      tally.accepted.length - tally.consumed.length =
        pending.length := by
    rw [hBalanced, List.length_append, Nat.add_sub_cancel_left]
  rw [Tally.observe, offerTo, hLength]
  split
  next =>
    rw [Tally.Balanced, hBalanced, List.append_assoc]
  next => exact hBalanced

theorem Tally.Balanced.consumed
    {tally : Tally}
    {pending rest : List KeyboardEvent}
    {event : KeyboardEvent}
    (hBalanced : tally.Balanced pending)
    (hPending : pending = event :: rest) :
    (tally.observe (.consumed event)).Balanced rest := by
  rw [Tally.Balanced, hPending] at hBalanced
  rw [Tally.Balanced, Tally.observe, hBalanced,
    List.append_assoc, List.singleton_append]

theorem Tally.Balanced.effect
    {tally : Tally}
    {pending pending' : List KeyboardEvent}
    {reader reader' : Reader}
    {observed : List Observation}
    (hBalanced : tally.Balanced pending)
    (hEffect :
      Effect pending reader observed pending' reader') :
    (observed.foldl Tally.observe tally).Balanced pending' := by
  cases hEffect with
  | silent => exact hBalanced
  | arrived reader event => exact hBalanced.offered event
  | called call => exact hBalanced
  | nothing call hEmpty =>
      cases call with
      | event => exact hBalanced
      | char => exact hBalanced
  | found call hPending => exact hBalanced
  | copied call event hFirst => exact hBalanced
  | tookEvent event rest hPending =>
      exact hBalanced.consumed hPending
  | tookChar event rest hPending hChar =>
      exact hBalanced.consumed hPending
  | skipped event rest hPending hChar =>
      exact hBalanced.consumed hPending

/- The events given out are those taken in, in order. -/
theorem Run.balanced
    {start system : System}
    {seen : List Observation}
    (hRun : Run start seen system)
    (hStart : start.Consistent)
    (hEmpty : start.keyboard.pending = []) :
    system.Consistent ∧
      (tally seen).Balanced system.keyboard.pending := by
  induction hRun with
  | refl =>
      refine ⟨hStart, ?_⟩
      rw [hEmpty]
      rfl
  | step move hRun hStep hSystem =>
      obtain ⟨hNext, hEffect⟩ := hSystem.1.step hStep
      refine ⟨hNext, ?_⟩
      rw [tally, List.foldl_append]
      exact hSystem.2.effect hEffect

end Drivers

end Whirliscope

------------------------------------------------------------
-- Reads
------------------------------------------------------------

namespace Whirliscope

namespace Drivers

/- A read that has not answered yet took dead keys at most. -/
structure Scanning
    (call : ReadCall)
    (seen : List Observation) : Prop where
  answers : answersIn seen = []
  event : call = .event → consumedIn seen = []
  dead : ∀ event ∈ consumedIn seen, event.ch = 0

/- The progress of a read, by where the reader stands. -/
def Progresses
    (call : ReadCall)
    (seen : List Observation)
    (pending : List KeyboardEvent) : Reader → Prop
| .idle => Answered seen pending call
| .comparing current => current = call ∧ Scanning call seen
| .copying current => current = call ∧ Scanning call seen
| .advancing current _ => current = call ∧ Scanning call seen

theorem consumedIn_append
    (seen observed : List Observation) :
    consumedIn (seen ++ observed) =
      consumedIn seen ++ consumedIn observed :=
  List.filterMap_append

theorem answersIn_append
    (seen observed : List Observation) :
    answersIn (seen ++ observed) =
      answersIn seen ++ answersIn observed :=
  List.filter_append _ _

/- What is seen without the reader leaves a read as it is. -/
theorem Scanning.append
    {call : ReadCall}
    {seen observed : List Observation}
    (hScanning : Scanning call seen)
    (hAnswers : answersIn observed = [])
    (hConsumed : consumedIn observed = []) :
    Scanning call (seen ++ observed) where
  answers := by
    rw [answersIn_append, hScanning.answers, hAnswers]
    rfl
  event := by
    rw [consumedIn_append, hConsumed, List.append_nil]
    exact hScanning.event
  dead := by
    rw [consumedIn_append, hConsumed, List.append_nil]
    exact hScanning.dead

/- The pending events after an effect. -/
theorem Effect.flow
    {pending pending' : List KeyboardEvent}
    {reader reader' : Reader}
    {observed : List Observation}
    (hEffect :
      Effect pending reader observed pending' reader') :
    ∃ arrived,
      pending ++ arrived = consumedIn observed ++ pending' := by
  cases hEffect with
  | silent => exact ⟨[], List.append_nil _⟩
  | arrived reader event =>
      rw [offerTo]
      split
      · exact ⟨[event], rfl⟩
      · exact ⟨[], List.append_nil _⟩
  | called call => exact ⟨[], List.append_nil _⟩
  | nothing call hEmpty =>
      refine ⟨[], ?_⟩
      cases call <;> exact List.append_nil _
  | found call hPending => exact ⟨[], List.append_nil _⟩
  | copied call event hFirst => exact ⟨[], List.append_nil _⟩
  | tookEvent event rest hPending =>
      exact ⟨[], by rw [hPending]; exact List.append_nil _⟩
  | tookChar event rest hPending hChar =>
      exact ⟨[], by rw [hPending]; exact List.append_nil _⟩
  | skipped event rest hPending hChar =>
      exact ⟨[], by rw [hPending]; exact List.append_nil _⟩

/- A step of the reader or of an interrupt during a read. -/
theorem Progresses.effect
    {call : ReadCall}
    {seen observed : List Observation}
    {pending pending' : List KeyboardEvent}
    {reader reader' : Reader}
    (hProgresses : Progresses call seen pending reader)
    (hBusy : reader ≠ .idle)
    (hEffect :
      Effect pending reader observed pending' reader') :
    Progresses call (seen ++ observed) pending' reader' := by
  cases hEffect with
  | silent =>
      rw [List.append_nil]
      exact hProgresses
  | arrived reader event =>
      cases reader with
      | idle => exact absurd rfl hBusy
      | comparing current =>
          exact ⟨hProgresses.1, hProgresses.2.append rfl rfl⟩
      | copying current =>
          exact ⟨hProgresses.1, hProgresses.2.append rfl rfl⟩
      | advancing current first =>
          exact ⟨hProgresses.1, hProgresses.2.append rfl rfl⟩
  | called call => exact absurd rfl hBusy
  | nothing current hEmpty =>
      obtain ⟨rfl, hScanning⟩ := hProgresses
      cases current with
      | event =>
          refine ⟨none, ?_, ?_, fun _ => hEmpty⟩
          · rw [answersIn_append, hScanning.answers]
            rfl
          · rw [consumedIn_append, hScanning.event rfl]
            rfl
      | char =>
          refine ⟨consumedIn seen, hScanning.dead,
            .inl ⟨?_, ?_, hEmpty⟩⟩
          · rw [answersIn_append, hScanning.answers]
            rfl
          · rw [consumedIn_append]
            exact List.append_nil _
  | found current hPending =>
      exact ⟨hProgresses.1, hProgresses.2.append rfl rfl⟩
  | copied current event hFirst =>
      exact ⟨hProgresses.1, hProgresses.2.append rfl rfl⟩
  | tookEvent event rest hPending =>
      obtain ⟨rfl, hScanning⟩ := hProgresses
      refine ⟨some event, ?_, ?_, nofun⟩
      · rw [answersIn_append, hScanning.answers]
        rfl
      · rw [consumedIn_append, hScanning.event rfl]
        rfl
  | tookChar event rest hPending hChar =>
      obtain ⟨rfl, hScanning⟩ := hProgresses
      refine ⟨consumedIn seen, hScanning.dead,
        .inr ⟨event, hChar, ?_, ?_⟩⟩
      · rw [answersIn_append, hScanning.answers]
        rfl
      · rw [consumedIn_append]
        rfl
  | skipped event rest hPending hChar =>
      obtain ⟨rfl, hScanning⟩ := hProgresses
      refine ⟨rfl, ?_, nofun, ?_⟩
      · rw [answersIn_append, hScanning.answers]
        rfl
      · rw [consumedIn_append]
        intro other hOther
        rcases List.mem_append.mp hOther with hOld | hNew
        · exact hScanning.dead other hOld
        · rw [List.mem_singleton.mp hNew]
          exact hChar

/- A read from its call on. -/
theorem During.progresses
    {start system : System}
    {call : ReadCall}
    {moves : List Move}
    {seen : List Observation}
    (hDuring : During start call moves seen system)
    (hStart : start.Consistent) :
    system.Consistent ∧
      Progresses call seen system.keyboard.pending
        system.reader ∧
      ∃ arrived,
        start.keyboard.pending ++ arrived =
          consumedIn seen ++ system.keyboard.pending := by
  induction hDuring with
  | called hIdle =>
      refine ⟨⟨hStart.indexed, trivial⟩, ⟨rfl, ?_⟩,
        [], List.append_nil _⟩
      exact ⟨rfl, fun _ => rfl, nofun⟩
  | step move hDuring hBusy hStep hSystem =>
      obtain ⟨hConsistent, hProgresses, arrived, hArrived⟩ :=
        hSystem
      obtain ⟨hNext, hEffect⟩ := hConsistent.step hStep
      refine ⟨hNext, hProgresses.effect hBusy hEffect, ?_⟩
      obtain ⟨more, hMore⟩ := hEffect.flow
      refine ⟨arrived ++ more, ?_⟩
      rw [← List.append_assoc, hArrived, List.append_assoc,
        hMore, consumedIn_append, List.append_assoc]

/- A read is part of a run. -/
theorem During.run
    {first start system : System}
    {call : ReadCall}
    {moves : List Move}
    {before seen : List Observation}
    (hDuring : During start call moves seen system)
    (hRun : Run first before start) :
    Run first (before ++ seen) system := by
  induction hDuring with
  | called hIdle =>
      exact hRun.step (.call call) (if_pos hIdle)
  | step move hDuring hBusy hStep hSystem =>
      rw [← List.append_assoc]
      exact hSystem.step move hStep

theorem During.proceeds
    {start system next : System}
    {call : ReadCall}
    {count : Nat}
    {seen observed : List Observation}
    (hDuring :
      During start call (List.replicate count .proceed) seen
        system)
    (hBusy : system.reader ≠ .idle)
    (hStep :
      proceed system.keyboard system.reader =
        some (next, observed)) :
    During start call (List.replicate (count + 1) .proceed)
      (seen ++ observed) next := by
  rw [List.replicate_succ']
  exact hDuring.step .proceed hBusy hStep

/-
  Left alone a read answers: the events that wait get fewer
  each time the reader compares the indexes again.
-/
theorem During.answers
    (pending : List KeyboardEvent)
    {start : System}
    {keyboard : Keyboard}
    {call : ReadCall}
    {count : Nat}
    {seen : List Observation}
    (hDuring :
      During start call (List.replicate count .proceed) seen
        ⟨keyboard, .comparing call⟩)
    (hIndexed : keyboard.Indexed)
    (hPending : keyboard.pending = pending) :
    ∃ total seen' final,
      During start call (List.replicate total .proceed) seen'
          final ∧
        final.reader = .idle := by
  induction pending generalizing keyboard count seen with
  | nil =>
      have hSame := hIndexed.pending_eq_nil_iff.mp hPending
      exact ⟨_, _, ⟨keyboard, .idle⟩,
        hDuring.proceeds nofun (if_pos hSame), rfl⟩
  | cons event rest hRest =>
      have hSome : keyboard.pending ≠ [] := by
        rw [hPending]
        exact List.cons_ne_nil _ _
      have hCons := hIndexed.pending_eq_cons hSome
      have hNotSame :
          ¬ keyboard.readIndex = keyboard.writeIndex :=
        fun hSame =>
          hSome (hIndexed.pending_eq_nil_iff.mpr hSame)
      have hFound :=
        hDuring.proceeds nofun (if_neg hNotSame)
      have hCopied := hFound.proceeds nofun rfl
      cases call with
      | event =>
          exact ⟨_, _, ⟨keyboard.advance, .idle⟩,
            hCopied.proceeds nofun rfl, rfl⟩
      | char =>
          by_cases hChar :
              (keyboard.buffer keyboard.readIndex).ch ≠ 0
          · exact ⟨_, _, ⟨keyboard.advance, .idle⟩,
              hCopied.proceeds nofun (if_pos hChar), rfl⟩
          · -- a dead key was skipped
            refine hRest
              (hCopied.proceeds nofun (if_neg hChar))
              hIndexed.advance ?_
            rw [hPending] at hCons
            exact (List.cons.inj hCons).2.symm

/-
  In every run the events read are those accepted, in order;
  a full queue drops an event and keeps the others; and every
  read answers with the first event that it may answer with,
  having taken what was before it and nothing after it.
-/
theorem keyboard_queue_exact
    (keyboard : Keyboard)
    (seen : List Observation)
    (system : System)
    (hRun :
      Run ⟨keyboardInit keyboard, .idle⟩ seen system) :
    (tally seen).accepted =
        (tally seen).consumed ++ system.keyboard.pending ∧
      system.keyboard.pending.length ≤ 127 ∧
      (∀ byte, system.keyboard.pending.length = 127 →
        let after := keyboardIrq system.keyboard byte
        after.pending = system.keyboard.pending ∧
          after.buffer = system.keyboard.buffer ∧
          after.readIndex = system.keyboard.readIndex ∧
          after.writeIndex = system.keyboard.writeIndex) ∧
      (∀ call moves during final,
        During system call moves during final →
        final.reader = .idle →
        Answered during final.keyboard.pending call ∧
          ∃ arrived,
            system.keyboard.pending ++ arrived =
              consumedIn during ++ final.keyboard.pending) ∧
      (system.reader = .idle → ∀ call, ∃ count during final,
        During system call (List.replicate count .proceed)
            during final ∧
          final.reader = .idle) := by
  obtain ⟨hConsistent, hBalanced⟩ :=
    hRun.balanced (keyboardInit_consistent keyboard)
      (keyboardInit_pending keyboard)
  refine ⟨hBalanced, hConsistent.indexed.pending_lt, ?_, ?_, ?_⟩
  · intro byte hFull
    obtain ⟨hBuffer, hRead, hWrite⟩ :=
      hConsistent.indexed.irq_full hFull byte
    refine ⟨?_, hBuffer, hRead, hWrite⟩
    rw [Keyboard.pending, hBuffer, hRead, hWrite]
    rfl
  · intro call moves during final hDuring hIdle
    obtain ⟨-, hProgresses, hArrived⟩ :=
      hDuring.progresses hConsistent
    rw [hIdle] at hProgresses
    exact ⟨hProgresses, hArrived⟩
  · intro hIdle call
    have hCalled :
        During system call (List.replicate 0 .proceed) [] _ :=
      .called hIdle
    exact hCalled.answers _ hConsistent.indexed rfl

/- The letter a is pressed. -/
theorem sampleRun_queue_exact :
    let event : KeyboardEvent := ⟨.char, 97, 0⟩
    (tally [.offered event]).accepted =
      (tally [.offered event]).consumed ++ [event] := by
  intro event
  let keyboard : Keyboard :=
    ⟨0, 0, fun _ => ⟨.none, 0, 0⟩, Flags.initial⟩
  have hDecoded :
      handleScancode Flags.initial 0x1e =
        (Flags.initial, some (.char, 97)) := by
    decide
  have hOffered :
      offeredEvent (keyboardInit keyboard) 0x1e =
        some event := by
    simp only [offeredEvent, keyboardInit, hDecoded]
    rfl
  have hStep :
      step ⟨keyboardInit keyboard, .idle⟩ (.interrupt 0x1e) =
        some (⟨keyboardIrq (keyboardInit keyboard) 0x1e, .idle⟩,
          [.offered event]) := by
    simp only [step, hOffered]
    rfl
  have hExact :=
    (keyboard_queue_exact keyboard [.offered event] _
      (Run.refl.step _ hStep)).1
  have hPending :
      (keyboardIrq (keyboardInit keyboard) 0x1e).pending =
        [event] := by
    have hIrq :=
      ((keyboardInit_indexed keyboard).irq 0x1e).2
    rw [hOffered, keyboardInit_pending] at hIrq
    exact hIrq
  rwa [hPending] at hExact

end Drivers

end Whirliscope
