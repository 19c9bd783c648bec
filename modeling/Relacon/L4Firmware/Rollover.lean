import Relacon.L3Protocol.Answers
import Relacon.L4Firmware.Run

/-!
# Behaviour does not depend on where the timer rolls over

`shift c` adds `c` to the timer reading of a step. Neither the last kick nor the
rising edges are initialised from the clock, so a run and the shifted one start
with the same stored times; they are compared only while they matter. `Shifted`
is what the two runs keep: the last kick differs by `c` while the watchdog is
armed, and a rising edge while its channel is settling, since both were then
sampled in this run. `rollover_invisible`: the two runs show the same.
-/
namespace Relacon.L4
open Relacon.Core Relacon.L1 Relacon.L2 Relacon.L3

def shiftReadings (c : UInt32) (r : Readings) : Readings :=
  { r with elapsedTimeUs := r.elapsedTimeUs + c }

def shift (c : UInt32) (e : Step) : Step := { e with readings := shiftReadings c e.readings }

/-- What a run shows. -/
structure Observed where
  relayPort : UInt16
  states : Fin 8 → DebounceState
  counts : Fin 8 → UInt16
  debounceTimeUs : UInt32
  watchdogTimeoutPeriodUs : UInt32
  response : List UInt8

def observe (fw : Firmware) : Observed where
  relayPort := fw.gpioAOdr
  states i := (fw.events.chan i).state
  counts i := (fw.events.chan i).count
  debounceTimeUs := fw.events.debounceTimeUs
  watchdogTimeoutPeriodUs := fw.watchdog.watchdogTimeoutPeriodUs
  response := fw.response.bytes

/-- What a call of the command processor returns. -/
def returns (fw : Firmware) (e : Step) : Option Bool :=
  match e.action with
  | .processCommand buf len => some (aduProtocolProcessCommand e.readings buf len fw).1
  | _ => none

/-! ## The relation between the two runs -/

structure ChanShifted (c : UInt32) (ch ch' : EventCounter) : Prop where
  state : ch'.state = ch.state
  count : ch'.count = ch.count
  edge : ch.state = .settling → ch'.risingEdgeTime = ch.risingEdgeTime + c

structure Shifted (c : UInt32) (fw fw' : Firmware) : Prop where
  port : fw'.gpioAOdr = fw.gpioAOdr
  chan : ∀ i, ChanShifted c (fw.events.chan i) (fw'.events.chan i)
  debounce : fw'.events.debounceTimeUs = fw.events.debounceTimeUs
  period : fw'.watchdog.watchdogTimeoutPeriodUs = fw.watchdog.watchdogTimeoutPeriodUs
  kick : fw.watchdog.watchdogTimeoutPeriodUs ≠ 0 →
    fw'.watchdog.lastKickTimeUs = fw.watchdog.lastKickTimeUs + c
  bytes : fw'.response.bytes = fw.response.bytes

theorem elapsed_shift (t k c : UInt32) : (t + c) - (k + c) = t - k := by
  apply UInt32.toNat_inj.mp
  rw [UInt32.toNat_sub, UInt32.toNat_sub, UInt32.toNat_add, UInt32.toNat_add]
  have := t.toNat_lt
  have := k.toNat_lt
  have := c.toNat_lt
  omega

theorem counterStep_shift {c t d : UInt32} {a : Bool} {ch ch' : EventCounter}
    (h : ChanShifted c ch ch') :
    ChanShifted c (counterStep t d a ch) (counterStep (t + c) d a ch') := by
  have hstate := h.state
  have hcount := h.count
  have hedge := h.edge
  unfold counterStep
  rw [hstate]
  cases hs : ch.state with
  | waitingForRisingEdge =>
    cases a
    · simpa using h
    · exact ⟨rfl, by simp [hcount], fun _ => rfl⟩
  | settling =>
    simp only [hedge hs, elapsed_shift]
    split
    · cases a <;> exact ⟨rfl, hcount, fun hset => by cases hset⟩
    · exact h
  | waitingForFallingEdge =>
    cases a
    · exact ⟨rfl, hcount, fun hset => by cases hset⟩
    · simpa using h

section
variable {c : UInt32} {fw fw' : Firmware}

theorem timedOut_shift (h : Shifted c fw fw') (r : Readings) :
    timedOut (shiftReadings c r) fw'.watchdog = timedOut r fw.watchdog := by
  unfold timedOut
  rw [h.period]
  by_cases h0 : fw.watchdog.watchdogTimeoutPeriodUs = 0
  · simp [h0, WATCHDOG_TIMEOUT_DISABLED]
  · have helapsed : boardGetElapsedTimeUs (shiftReadings c r) - fw'.watchdog.lastKickTimeUs =
        boardGetElapsedTimeUs r - fw.watchdog.lastKickTimeUs := by
      rw [h.kick h0]
      exact elapsed_shift _ _ _
    rw [helapsed]

theorem answerTo_shift (h : Shifted c fw fw') (r : Readings) (s : List UInt8) :
    answerTo (shiftReadings c r) fw' s = answerTo r fw s := by
  unfold answerTo
  cases decode s with
  | none => rfl
  | some cmd =>
    cases cmd with
    | readSingleRelay n | readRelayPort => simp only [Command.answer, Firmware.relays, h.port]
    | readEventCounter n | readAndResetEventCounter n => simp only [Command.answer, (h.chan n).count]
    | getDebounce => simp only [Command.answer, h.debounce]
    | getWatchdog => simp only [Command.answer, h.period]
    | _ => rfl

theorem success_shift (h : Shifted c fw fw') (r : Readings) (buf : List UInt8) (len : Nat) :
    (aduProtocolProcessCommand (shiftReadings c r) buf len fw').1 =
      (aduProtocolProcessCommand r buf len fw).1 := by
  rw [processCommand_success, processCommand_success]
  cases decode (cstr buf) with
  | none => rfl
  | some cmd => simp only [exec_success, h.debounce, h.period]

theorem returns_shift (h : Shifted c fw fw') (e : Step) :
    returns fw' (shift c e) = returns fw e := by
  unfold returns shift
  cases e.action with
  | processCommand buf len => exact congrArg some (success_shift h e.readings buf len)
  | eventCounterTask => rfl
  | watchdogTask => rfl

theorem shifted_step (h : Shifted c fw fw') (e : Step) :
    Shifted c (step fw e) (step fw' (shift c e)) where
  port := by
    rw [step_gpioAOdr, step_gpioAOdr]
    simp only [shift, timedOut_shift h, Firmware.relays, h.port]
  chan i := by
    rw [step_chan, step_chan]
    cases ha : e.action with
    | processCommand buf len =>
      simp only [shift, ha]
      split
      · exact ⟨(h.chan i).state, rfl, (h.chan i).edge⟩
      · exact h.chan i
    | eventCounterTask =>
      simp only [shift, ha, h.debounce]
      exact counterStep_shift (h.chan i)
    | watchdogTask =>
      simp only [shift, ha]
      exact h.chan i
  debounce := by
    rw [step_debounce, step_debounce]
    simp only [shift, h.debounce]
  period := by
    rw [step_period, step_period]
    simp only [shift, timedOut_shift h, h.period]
  kick := by
    rw [step_period, step_lastKick, step_lastKick]
    cases ha : e.action with
    | processCommand buf len =>
      simp only [shift, ha]
      exact fun _ => rfl
    | eventCounterTask =>
      simp only [shift, ha]
      exact h.kick
    | watchdogTask =>
      simp only [shift, ha]
      split
      · exact fun hne => (hne rfl).elim
      · exact h.kick
  bytes := by
    unfold step shift
    cases ha : e.action with
    | processCommand buf len => simp only [processCommand_bytes, answerTo_shift h, h.bytes]
    | eventCounterTask => exact h.bytes
    | watchdogTask => exact h.bytes

end

theorem shifted_init (c : UInt32) : Shifted c init init where
  port := rfl
  chan i := by
    refine ⟨rfl, rfl, fun hset => ?_⟩
    rw [init, eventCounterInit_chan] at hset
    cases hset
  debounce := rfl
  period := rfl
  kick h := (h rfl).elim
  bytes := rfl

theorem shifted_lockstep (c : UInt32) : Machine.Lockstep firmware firmware (shift c) (Shifted c) :=
  ⟨shifted_init c, fun _ _ e h => shifted_step h e⟩

/-- **The rollover is invisible.** After every run, and in the call that comes
next, shifted timer readings show the same. -/
theorem rollover_invisible (c : UInt32) (evs : List Step) :
    observe (firmware.run (evs.map (shift c))) = observe (firmware.run evs) ∧
      ∀ e, returns (firmware.run (evs.map (shift c))) (shift c e) =
        returns (firmware.run evs) e := by
  have h := (shifted_lockstep c).run evs
  refine ⟨?_, returns_shift h⟩
  simp only [observe, h.port, fun i => (h.chan i).state, fun i => (h.chan i).count, h.debounce,
    h.period, h.bytes]

end Relacon.L4
