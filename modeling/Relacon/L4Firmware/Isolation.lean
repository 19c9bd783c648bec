import Relacon.Core.Parts
import Relacon.L4Firmware.Counting

/-!
# Lines do not interfere

The eight counters share one poll, one debounce time and one response buffer.
`line_isolated`: the counter of line `n`, and every answer to `REn` and `RCn`, depend
on nothing but the levels of input `n` at the polls and their times, and on the order
of `REn`, `RCn` and `DBn` among them. Whatever happens on the other inputs, whatever
other commands come, valid or not, and whatever the watchdog does, is invisible.

`LinePart` is the part of the firmware that this is about, and `lineView` what it sees
of a step.
-/
namespace Relacon.L4
open Relacon.Core Relacon.L1 Relacon.L2 Relacon.L3

/-! ## What a line sees -/

inductive LineView where
  | poll (time : UInt32) (asserted : Bool)
  | read
  | readAndReset
  | setDebounce (debounceTimeUs : UInt32)
  deriving DecidableEq, Repr

def lineView (n : Fin 8) (e : Step) : Option LineView :=
  match e.action with
  | .eventCounterTask =>
    some (.poll e.readings.elapsedTimeUs (bitSet (boardReadDigitalInputs e.readings) n))
  | .processCommand buf _ =>
    match decode (cstr buf) with
    | some (.readEventCounter m) => if m = n then some .read else none
    | some (.readAndResetEventCounter m) => if m = n then some .readAndReset else none
    | some (.setDebounce i) => some (.setDebounce (debounceTimeOf i))
    | _ => none
  | .watchdogTask => none

structure LinePart where
  counter : EventCounter
  debounceTimeUs : UInt32
  deriving DecidableEq, Repr

def LinePart.step (s : LinePart) : LineView → LinePart
  | .poll time asserted => { s with counter := counterStep time s.debounceTimeUs asserted s.counter }
  | .read => s
  | .readAndReset => { s with counter := { s.counter with count := 0 } }
  | .setDebounce d => { s with debounceTimeUs := d }

/-- The number that the line answers to a read. -/
def LinePart.answer (s : LinePart) : LineView → Option Nat
  | .read | .readAndReset => some s.counter.count.toNat
  | _ => none

def linePart (n : Fin 8) (fw : Firmware) : LinePart := ⟨fw.events.chan n, fw.events.debounceTimeUs⟩

def linePartMachine (n : Fin 8) : Machine LinePart LineView := ⟨linePart n init, LinePart.step⟩

/-- The number in the response to `REn` or `RCn`. -/
def lineAnswer (n : Fin 8) (fw : Firmware) (e : Step) : Option Nat :=
  match e.action with
  | .processCommand buf _ =>
    if decode (cstr buf) = some (.readEventCounter n) ∨
        decode (cstr buf) = some (.readAndResetEventCounter n) then
      some (ofNumeral 10 (step fw e).response.bytes)
    else none
  | _ => none

/-! ## The part -/

theorem linePart_step (n : Fin 8) (fw : Firmware) (e : Step) :
    linePart n (step fw e) = match lineView n e with
      | some v => (linePart n fw).step v
      | none => linePart n fw := by
  have hchan := step_chan fw e n
  have hdeb := step_debounce fw e
  unfold linePart
  cases ha : e.action with
  | eventCounterTask =>
    simp only [ha] at hchan hdeb
    rw [hchan, hdeb, lineView, ha]
    rfl
  | watchdogTask =>
    simp only [ha] at hchan hdeb
    rw [hchan, hdeb, lineView, ha]
  | processCommand buf len =>
    simp only [ha] at hchan hdeb
    rw [hchan, hdeb, lineView, ha]
    simp only
    cases hd : decode (cstr buf) with
    | none => rfl
    | some c =>
      cases c with
      | readEventCounter m => by_cases hm : m = n <;> simp [hm, LinePart.step]
      | readAndResetEventCounter m => by_cases hm : m = n <;> simp [hm, LinePart.step]
      | setDebounce i => simp [LinePart.step]
      | _ => simp

theorem lineAnswer_eq (n : Fin 8) (fw : Firmware) (e : Step) :
    lineAnswer n fw e = (lineView n e).bind (linePart n fw).answer := by
  cases ha : e.action with
  | eventCounterTask => simp [lineAnswer, lineView, ha, LinePart.answer]
  | watchdogTask => simp [lineAnswer, lineView, ha]
  | processCommand buf len =>
    have hreads : decode (cstr buf) = some (.readEventCounter n) ∨
        decode (cstr buf) = some (.readAndResetEventCounter n) →
        ofNumeral 10 (step fw e).response.bytes = (fw.events.chan n).count.toNat := by
      intro hd
      rw [step, ha]
      exact (reads_response (hd.imp decode_readEventCounter_iff.mp
        decode_readAndResetEventCounter_iff.mp)).2.value
    simp only [lineAnswer, lineView, ha]
    cases hd : decode (cstr buf) with
    | none => rfl
    | some c =>
      rw [hd] at hreads
      cases c with
      | readEventCounter m =>
        by_cases hm : m = n
        · subst hm
          simp [hreads, LinePart.answer, linePart]
        · simp [hm]
      | readAndResetEventCounter m =>
        by_cases hm : m = n
        · subst hm
          simp [hreads, LinePart.answer, linePart]
        · simp [hm]
      | setDebounce i => simp [LinePart.answer]
      | _ => simp

theorem line_part (n : Fin 8) : Machine.Part firmware (linePartMachine n) (linePart n) (lineView n)
    (lineAnswer n) LinePart.answer where
  init := rfl
  step fw e := by
    refine (linePart_step n fw e).trans ?_
    cases lineView n e <;> rfl
  out := lineAnswer_eq n

/-- **Lines do not interfere.** -/
theorem line_isolated (n : Fin 8) (a b : List Step)
    (h : a.filterMap (lineView n) = b.filterMap (lineView n)) :
    (firmware.run a).events.chan n = (firmware.run b).events.chan n ∧
      (firmware.trace (lineAnswer n) a).reduceOption =
        (firmware.trace (lineAnswer n) b).reduceOption := by
  obtain ⟨hstate, hanswers⟩ := (line_part n).isolated h
  exact ⟨congrArg LinePart.counter hstate, hanswers⟩

/-- Input 1, a relay command and the watchdog are nothing to line 0. -/
theorem line_isolated_zero :
    let busy : List Step := [⟨⟨0, 0, 2⟩, .processCommand (ascii ['S', 'K', '3'] ++ [0]) 4⟩,
      ⟨⟨5, 0, 3⟩, .eventCounterTask⟩, ⟨⟨6, 0, 0⟩, .watchdogTask⟩]
    let quiet : List Step := [⟨⟨5, 0, 1⟩, .eventCounterTask⟩]
    (firmware.run busy).events.chan 0 = (firmware.run quiet).events.chan 0 := by
  intro busy quiet
  exact (line_isolated 0 busy quiet (by decide +kernel)).1

end Relacon.L4
