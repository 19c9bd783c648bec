import Relacon.Core.Loop
import Relacon.Core.Machine
import Relacon.L1Board.Board

/-!
# The event counters

Eight debounced counters share one sample of the inputs per poll. Each channel
is a three-state automaton (`counterStep`); `eventCounterTask` runs it on every
channel, and the channels do not interfere (`eventCounterSample_chan`).

`counterMachine` is the module on its own: polls at true times, reads, resets
and changes of the debounce time, in any order, from `EventCounterInit` over any
prior contents of the static variables.

* `counterStep_cases`: what one poll can do to a channel.
* `increments_poll_iff`: a poll counts on a channel exactly when the channel waits
  for a rising edge and its input is asserted.
-/
namespace Relacon.L2
open Relacon.Core Relacon.L1

abbrev EVENT_COUNTER_NUM_COUNTERS : Nat := 8

def DEFAULT_DEBOUNCE_TIME_US : UInt32 := 1000

/-- mirrors src/EventCounter.c:36-41 -/
inductive DebounceState where
  | waitingForRisingEdge | settling | waitingForFallingEdge
  deriving DecidableEq, Repr

/-- mirrors src/EventCounter.c:43-48 -/
structure EventCounter where
  state : DebounceState
  risingEdgeTime : UInt32
  count : UInt16
  deriving DecidableEq, Repr

/-- mirrors src/EventCounter.c:50-54 -/
structure EventCounters where
  counters : Vector EventCounter EVENT_COUNTER_NUM_COUNTERS
  debounceTimeUs : UInt32
  deriving DecidableEq, Repr

/-- The static variables at reset. -/
def EventCounters.zero : EventCounters := ⟨Vector.replicate _ ⟨.waitingForRisingEdge, 0, 0⟩, 0⟩

/-- The rising-edge times are left as they are.
mirrors src/EventCounter.c:56-66 -/
def eventCounterInit (ec : EventCounters) : EventCounters where
  counters := updateAll (fun _ c => { c with count := 0, state := .waitingForRisingEdge }) ec.counters
  debounceTimeUs := DEFAULT_DEBOUNCE_TIME_US

/-- The `switch` on one counter.
mirrors src/EventCounter.c:78-104 -/
def counterStep (sampleTime debounceTimeUs : UInt32) (inputAsserted : Bool) (c : EventCounter) :
    EventCounter :=
  match c.state with
  | .waitingForRisingEdge =>
    if inputAsserted then
      { count := c.count + 1, risingEdgeTime := sampleTime, state := .settling }
    else c
  | .settling =>
    -- no change of state until the debounce timer has elapsed
    if sampleTime - c.risingEdgeTime > debounceTimeUs then
      if inputAsserted then { c with state := .waitingForFallingEdge }
      else { c with state := .waitingForRisingEdge }
    else c
  | .waitingForFallingEdge =>
    if !inputAsserted then { c with state := .waitingForRisingEdge } else c

/-- The loop over the counters, on one sample.
mirrors src/EventCounter.c:73-105 -/
def eventCounterSample (sampleTime : UInt32) (inputs : UInt8) (ec : EventCounters) : EventCounters :=
  { ec with
    counters := updateAll (fun i c => counterStep sampleTime ec.debounceTimeUs (bitSet inputs i) c)
      ec.counters }

/-- mirrors src/EventCounter.c:68-106 -/
def eventCounterTask (r : Readings) (ec : EventCounters) : EventCounters :=
  eventCounterSample (boardGetElapsedTimeUs r) (boardReadDigitalInputs r) ec

/-- mirrors src/EventCounter.c:108-120 -/
def eventCounterRead (index : UInt8) (resetAfterRead : Bool) (ec : EventCounters) :
    UInt16 × EventCounters :=
  if h : index.toNat < EVENT_COUNTER_NUM_COUNTERS then
    let c := ec.counters[index.toNat]
    (c.count,
      if resetAfterRead then
        { ec with counters := ec.counters.set index.toNat { c with count := 0 } }
      else ec)
  else (0, ec)

/-- mirrors src/EventCounter.c:122-125 -/
def eventCounterDebounceTimeSet (debounceTimeUs : UInt32) (ec : EventCounters) : EventCounters :=
  { ec with debounceTimeUs := debounceTimeUs }

/-- mirrors src/EventCounter.c:127-130 -/
def eventCounterDebounceTimeGet (ec : EventCounters) : UInt32 := ec.debounceTimeUs

/-- Channel `i`. -/
def EventCounters.chan (ec : EventCounters) (i : Fin EVENT_COUNTER_NUM_COUNTERS) : EventCounter :=
  ec.counters[i]

/-! ## One lemma per operation and channel -/

@[simp] theorem eventCounterInit_chan (ec : EventCounters) (i : Fin EVENT_COUNTER_NUM_COUNTERS) :
    (eventCounterInit ec).chan i = { ec.chan i with count := 0, state := .waitingForRisingEdge } := by
  simp only [EventCounters.chan, eventCounterInit, getElem_updateAll]

@[simp] theorem eventCounterSample_chan (t : UInt32) (inputs : UInt8) (ec : EventCounters)
    (i : Fin EVENT_COUNTER_NUM_COUNTERS) : (eventCounterSample t inputs ec).chan i =
      counterStep t ec.debounceTimeUs (bitSet inputs i) (ec.chan i) := by
  simp only [EventCounters.chan, eventCounterSample, getElem_updateAll]

@[simp] theorem eventCounterSample_debounce (t : UInt32) (inputs : UInt8) (ec : EventCounters) :
    (eventCounterSample t inputs ec).debounceTimeUs = ec.debounceTimeUs := rfl

/-- A read touches at most the count it resets. -/
theorem eventCounterRead_chan (index : UInt8) (reset : Bool) (ec : EventCounters)
    (i : Fin EVENT_COUNTER_NUM_COUNTERS) : (eventCounterRead index reset ec).2.chan i =
      if reset = true ∧ index.toNat = i.val then { ec.chan i with count := 0 } else ec.chan i := by
  unfold eventCounterRead EventCounters.chan
  by_cases h : index.toNat < EVENT_COUNTER_NUM_COUNTERS
  · cases reset
    · simp [h]
    · by_cases hi : index.toNat = i.val <;> simp [h, hi]
  · have hi : index.toNat ≠ i.val := by omega
    simp [h, hi]

theorem eventCounterRead_count {index : UInt8} {i : Fin EVENT_COUNTER_NUM_COUNTERS}
    (h : index.toNat = i.val) (reset : Bool) (ec : EventCounters) :
    (eventCounterRead index reset ec).1 = (ec.chan i).count := by
  simp [eventCounterRead, EventCounters.chan, h]

@[simp] theorem eventCounterRead_debounce (index : UInt8) (reset : Bool) (ec : EventCounters) :
    (eventCounterRead index reset ec).2.debounceTimeUs = ec.debounceTimeUs := by
  unfold eventCounterRead
  split
  · cases reset <;> rfl
  · rfl

@[simp] theorem eventCounterDebounceTimeSet_chan (d : UInt32) (ec : EventCounters)
    (i : Fin EVENT_COUNTER_NUM_COUNTERS) : (eventCounterDebounceTimeSet d ec).chan i = ec.chan i := rfl

/-! ## The module as a machine -/

inductive CounterEv where
  | poll (time : Nat) (inputs : UInt8)
  | read (index : UInt8) (resetAfterRead : Bool)
  | debounceTimeSet (debounceTimeUs : UInt32)
  deriving DecidableEq, Repr

def counterEvStep (ec : EventCounters) : CounterEv → EventCounters
  | .poll time inputs => eventCounterSample (reading time) inputs ec
  | .read index reset => (eventCounterRead index reset ec).2
  | .debounceTimeSet d => eventCounterDebounceTimeSet d ec

/-- From `EventCounterInit` over the prior contents `prior` of the static variables. -/
def counterMachine (prior : EventCounters) : Machine EventCounters CounterEv :=
  ⟨eventCounterInit prior, counterEvStep⟩

/-- The count of channel `i` goes up at this step: a poll that leaves it one
higher (modulo 2^16, so from 65535 to 0 as well). -/
def increments (i : Fin 8) (ec : EventCounters) : CounterEv → Bool
  | .poll time inputs =>
    ((eventCounterSample (reading time) inputs ec).chan i).count == (ec.chan i).count + 1
  | _ => false

theorem counterStep_cases (t d : UInt32) (a : Bool) (c : EventCounter) :
    (c.state = .waitingForRisingEdge ∧ a = true ∧ counterStep t d a c =
        { state := .settling, risingEdgeTime := t, count := c.count + 1 }) ∨
      (counterStep t d a c = c ∧ (c.state = .waitingForRisingEdge ∧ a = false ∨
        c.state = .settling ∧ ¬ t - c.risingEdgeTime > d ∨
        c.state = .waitingForFallingEdge ∧ a = true)) ∨
      (c.state = .settling ∧ t - c.risingEdgeTime > d ∧ counterStep t d a c =
        { c with state := if a then .waitingForFallingEdge else .waitingForRisingEdge }) ∨
      (c.state = .waitingForFallingEdge ∧ a = false ∧
        counterStep t d a c = { c with state := .waitingForRisingEdge }) := by
  unfold counterStep
  cases hs : c.state with
  | waitingForRisingEdge => cases a <;> simp
  | settling =>
    by_cases he : t - c.risingEdgeTime > d
    · cases a <;> simp [he]
    · simp [he]
  | waitingForFallingEdge => cases a <;> simp

theorem counterStep_count (t d : UInt32) (a : Bool) (c : EventCounter) :
    (counterStep t d a c).count = c.count + 1 ∨ (counterStep t d a c).count = c.count := by
  rcases counterStep_cases t d a c with ⟨-, -, h⟩ | ⟨h, -⟩ | ⟨-, -, h⟩ | ⟨-, -, h⟩ <;> simp [h]

/-- An asserted input never leaves a channel waiting for a rising edge. -/
theorem counterStep_asserted (t d : UInt32) (c : EventCounter) :
    (counterStep t d true c).state ≠ .waitingForRisingEdge := by
  rcases counterStep_cases t d true c with ⟨-, -, h⟩ | ⟨h, hs⟩ | ⟨-, -, h⟩ | ⟨-, ha, -⟩
  · simp [h]
  · rw [h]
    rcases hs with ⟨-, ha⟩ | ⟨hs, -⟩ | ⟨hs, -⟩
    · cases ha
    · simp [hs]
    · simp [hs]
  · simp [h]
  · cases ha

/-- A channel that does not wait for a rising edge keeps its count. -/
theorem counterStep_count_eq {t d : UInt32} {a : Bool} {c : EventCounter}
    (h : c.state ≠ .waitingForRisingEdge) : (counterStep t d a c).count = c.count := by
  rcases counterStep_cases t d a c with ⟨hs, -⟩ | ⟨he, -⟩ | ⟨-, -, he⟩ | ⟨-, -, he⟩
  · exact (h hs).elim
  all_goals rw [he]

theorem succ_ne (x : UInt16) : x ≠ x + 1 := by
  intro h
  have := congrArg UInt16.toNat h
  rw [UInt16.toNat_add] at this
  have := x.toNat_lt
  simp only [UInt16.reduceToNat] at *
  omega

/-- A poll counts on a channel that waits for a rising edge and sees its input asserted. -/
theorem increments_poll_iff (i : Fin 8) (ec : EventCounters) (t : Nat) (inputs : UInt8) :
    increments i ec (.poll t inputs) = true ↔
      (ec.chan i).state = .waitingForRisingEdge ∧ bitSet inputs i = true := by
  simp only [increments, eventCounterSample_chan, beq_iff_eq]
  have hsame : ∀ x : UInt16, x ≠ x + 1 := succ_ne
  rcases counterStep_cases (reading t) ec.debounceTimeUs (bitSet inputs i) (ec.chan i) with
    ⟨hs, ha, he⟩ | ⟨he, hs⟩ | ⟨hs, -, he⟩ | ⟨hs, -, he⟩
  · rw [he]
    simp [hs, ha]
  · rw [he]
    rcases hs with ⟨-, ha⟩ | ⟨hs, -⟩ | ⟨hs, -⟩
    · simp [hsame, ha]
    · simp [hsame, hs]
    · simp [hsame, hs]
  · simp [he, hsame, hs]
  · simp [he, hsame, hs]

end Relacon.L2
