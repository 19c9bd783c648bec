import Relacon.L3Protocol.Effects

/-!
# Runs of the firmware

The main loop services USB (which processes commands), polls the event counters
and polls the watchdog, for ever. `firmware` lets the three interleave in any
order: a `Step` is one call together with what the board shows to it. `timed` is
the same machine with the true time, an unbounded number of microseconds, in
place of the timer reading.

* `FwOk`, `ok_reachable`: in every reachable state the two settings are
  entries of their tables, and the response is at most five digits.
* `counter_sim`: on the event counters a run of the firmware is a run of
  `counterMachine`, so what is proved about that machine holds of the firmware.
-/
namespace Relacon.L4
open Relacon.Core Relacon.L1 Relacon.L2 Relacon.L3

inductive Action where
  | processCommand (buf : List UInt8) (len : Nat)
  | eventCounterTask
  | watchdogTask
  deriving DecidableEq, Repr

structure Step where
  readings : Readings
  action : Action
  deriving DecidableEq, Repr

/-- Static variables at reset, before initialisation. -/
def reset : Firmware where
  gpioAOdr := 0
  events := .zero
  watchdog := ⟨0, 0⟩
  response := ⟨Vector.replicate _ 0, 0⟩

/-- mirrors src/Main.c:39-40 -/
def init : Firmware :=
  { reset with events := eventCounterInit reset.events, watchdog := watchdogInit reset.watchdog }

def step (fw : Firmware) (e : Step) : Firmware :=
  match e.action with
  | .processCommand buf len => (aduProtocolProcessCommand e.readings buf len fw).2
  | .eventCounterTask => { fw with events := eventCounterTask e.readings fw.events }
  | .watchdogTask =>
    let (odr, watchdog) := watchdogTask e.readings fw.gpioAOdr fw.watchdog
    { fw with gpioAOdr := odr, watchdog := watchdog }

def firmware : Machine Firmware Step := ⟨init, step⟩

structure TimedStep where
  time : Nat
  gpioA : UInt32
  gpioB : UInt32
  action : Action
  deriving DecidableEq, Repr

def TimedStep.toStep (e : TimedStep) : Step := ⟨⟨reading e.time, e.gpioA, e.gpioB⟩, e.action⟩

def timed : Machine Firmware TimedStep := ⟨init, fun fw e => step fw e.toStep⟩

theorem timed_run (evs : List TimedStep) : timed.run evs = firmware.run (evs.map TimedStep.toStep) := by
  induction evs using List.reverseRecOn with
  | nil => rfl
  | append_singleton h e ih =>
    rw [Machine.run_snoc, List.map_append, List.map_singleton, Machine.run_snoc, ← ih]
    rfl

/-! ## One step, component by component -/

theorem step_gpioAOdr (fw : Firmware) (e : Step) : (step fw e).gpioAOdr =
    match e.action with
    | .processCommand buf _ =>
      match decode (cstr buf) with
      | some (.setRelay n) => boardWriteRelays (setBit fw.relays n)
      | some (.clearRelay n) => boardWriteRelays (clearBit fw.relays n)
      | some (.writeRelayPort v) => boardWriteRelays v
      | _ => fw.gpioAOdr
    | .eventCounterTask => fw.gpioAOdr
    | .watchdogTask => if timedOut e.readings fw.watchdog then boardWriteRelays 0 else fw.gpioAOdr := by
  unfold step
  cases e.action with
  | processCommand buf len =>
    simp only [processCommand_gpioAOdr]
    cases decode (cstr buf) with
    | none => rfl
    | some c => simp only [exec_gpioAOdr]; cases c <;> rfl
  | eventCounterTask => rfl
  | watchdogTask => simp only [watchdogTask]; split <;> rfl

theorem step_period (fw : Firmware) (e : Step) : (step fw e).watchdog.watchdogTimeoutPeriodUs =
    match e.action with
    | .processCommand buf _ =>
      match decode (cstr buf) with
      | some (.setWatchdog i) => watchdogTimeOf i
      | _ => fw.watchdog.watchdogTimeoutPeriodUs
    | .eventCounterTask => fw.watchdog.watchdogTimeoutPeriodUs
    | .watchdogTask =>
      if timedOut e.readings fw.watchdog then 0 else fw.watchdog.watchdogTimeoutPeriodUs := by
  unfold step
  cases e.action with
  | processCommand buf len =>
    simp only [processCommand_watchdog, watchdogKick_period]
    cases decode (cstr buf) with
    | none => rfl
    | some c => simp only [exec_watchdog]; cases c <;> rfl
  | eventCounterTask => rfl
  | watchdogTask => simp only [watchdogTask]; split <;> rfl

theorem step_lastKick (fw : Firmware) (e : Step) : (step fw e).watchdog.lastKickTimeUs =
    match e.action with
    | .processCommand _ _ => e.readings.elapsedTimeUs
    | _ => fw.watchdog.lastKickTimeUs := by
  unfold step
  cases e.action with
  | processCommand buf len => simp only [processCommand_watchdog, watchdogKick_lastKick]
  | eventCounterTask => rfl
  | watchdogTask => simp only [watchdogTask]; split <;> rfl

theorem step_debounce (fw : Firmware) (e : Step) : (step fw e).events.debounceTimeUs =
    match e.action with
    | .processCommand buf _ =>
      match decode (cstr buf) with
      | some (.setDebounce i) => debounceTimeOf i
      | _ => fw.events.debounceTimeUs
    | _ => fw.events.debounceTimeUs := by
  unfold step
  cases e.action with
  | processCommand buf len =>
    simp only [processCommand_events]
    cases decode (cstr buf) with
    | none => rfl
    | some c =>
      simp only [exec_events]
      cases c with
      | readAndResetEventCounter n => exact eventCounterRead_debounce _ _ _
      | _ => rfl
  | eventCounterTask => rfl
  | watchdogTask => rfl

theorem step_chan (fw : Firmware) (e : Step) (n : Fin 8) : (step fw e).events.chan n =
    match e.action with
    | .processCommand buf _ =>
      if decode (cstr buf) = some (.readAndResetEventCounter n) then
        { fw.events.chan n with count := 0 }
      else fw.events.chan n
    | .eventCounterTask => counterStep e.readings.elapsedTimeUs fw.events.debounceTimeUs
        (bitSet (boardReadDigitalInputs e.readings) n) (fw.events.chan n)
    | .watchdogTask => fw.events.chan n := by
  unfold step
  cases e.action with
  | processCommand buf len =>
    simp only [processCommand_events]
    cases decode (cstr buf) with
    | none => rfl
    | some c =>
      simp only [exec_events, Option.some.injEq]
      cases c with
      | readAndResetEventCounter m =>
        have hm : (UInt8.ofNat m.val).toNat = m.val := by
          rw [UInt8.toNat_ofNat']
          omega
        simp [eventCounterRead_chan, hm, Fin.ext_iff]
      | _ => simp
  | eventCounterTask => exact eventCounterSample_chan _ _ _ n
  | watchdogTask => rfl

/-! ## Settings and response in every reachable state -/

/-- What holds of the settings and the response between any two calls. -/
structure FwOk (fw : Firmware) : Prop where
  debounce : fw.events.debounceTimeUs ∈ DEBOUNCE_TIMES_US.toList
  period : fw.watchdog.watchdogTimeoutPeriodUs ∈ WATCHDOG_TIMES_US.toList
  response : fw.response.Ok

theorem debounceTimeOf_mem (i : Fin 3) : debounceTimeOf i ∈ DEBOUNCE_TIMES_US.toList := by
  revert i; decide

theorem watchdogTimeOf_mem (i : Fin 4) : watchdogTimeOf i ∈ WATCHDOG_TIMES_US.toList := by
  revert i; decide

theorem ok_init : FwOk init := by
  refine ⟨by decide, by decide, by decide, ?_⟩
  intro c hc
  cases hc

theorem ok_step (fw : Firmware) (e : Step) (h : FwOk fw) : FwOk (step fw e) where
  debounce := by
    rw [step_debounce]
    split
    · split
      · exact debounceTimeOf_mem _
      · exact h.debounce
    · exact h.debounce
  period := by
    rw [step_period]
    split
    · split
      · exact watchdogTimeOf_mem _
      · exact h.period
    · exact h.period
    · split
      · exact watchdogTimeOf_mem 0
      · exact h.period
  response := by
    unfold step
    cases e.action with
    | processCommand buf len => exact processCommand_response _ _ _ _ h.response
    | eventCounterTask => exact h.response
    | watchdogTask => exact h.response

theorem ok_inductive : firmware.Inductive FwOk := ⟨ok_init, ok_step⟩

theorem ok_reachable {fw : Firmware} (h : firmware.Reachable fw) : FwOk fw :=
  ok_inductive.reachable h

theorem ok_timed (evs : List TimedStep) : FwOk (timed.run evs) := by
  rw [timed_run]
  exact ok_inductive.run _

/-- No timeout is longer than the last entry of the table. -/
theorem FwOk.period_le {fw : Firmware} (h : FwOk fw) :
    fw.watchdog.watchdogTimeoutPeriodUs.toNat ≤ 60000000 := by
  have key : WATCHDOG_TIMES_US.toList.all (·.toNat ≤ 60000000) = true := by decide
  simpa using List.all_eq_true.mp key _ h.period

/-! ## The event counters of a run -/

/-- What one step of the firmware does to the event counters. -/
def counterEvents (_ : Firmware) (e : TimedStep) : List CounterEv :=
  match e.action with
  | .processCommand buf _ =>
    match decode (cstr buf) with
    | some (.readEventCounter n) => [.read (UInt8.ofNat n) false]
    | some (.readAndResetEventCounter n) => [.read (UInt8.ofNat n) true]
    | some (.setDebounce i) => [.debounceTimeSet (debounceTimeOf i)]
    | _ => []
  | .eventCounterTask => [.poll e.time (boardReadDigitalInputs e.toStep.readings)]
  | .watchdogTask => []

theorem counter_sim :
    Machine.Sim timed (counterMachine reset.events) (fun fw => fw.events) counterEvents where
  init := rfl
  step := by
    intro fw e
    show (step fw e.toStep).events = _
    unfold step counterEvents
    cases h : e.action with
    | processCommand buf len =>
      have ha : e.toStep.action = .processCommand buf len := h
      simp only [ha, processCommand_events]
      cases decode (cstr buf) with
      | none => rfl
      | some c =>
        simp only [exec_events]
        cases c with
        | readEventCounter n =>
          simp only [Machine.runFrom_cons, Machine.runFrom_nil, counterMachine, counterEvStep,
            eventCounterRead]
          split <;> rfl
        | _ => rfl
    | eventCounterTask =>
      have ha : e.toStep.action = .eventCounterTask := h
      simp only [ha]
      rfl
    | watchdogTask =>
      have ha : e.toStep.action = .watchdogTask := h
      simp only [ha]
      rfl

/-- The event counters after a run are those of the module on its own. -/
theorem events_run (evs : List TimedStep) :
    (timed.run evs).events = (counterMachine reset.events).run (timed.simEvents counterEvents evs) :=
  counter_sim.run evs

end Relacon.L4
