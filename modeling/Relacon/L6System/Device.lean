import Mathlib.Data.Nat.Init
import Relacon.L2Tasks.ExactTime
import Relacon.L3Protocol.Inputs
import Relacon.L3Protocol.Response

/-!
# The device as a host sees it

`Device` says what the firmware is for, without timer readings, registers, tables
or buffers: eight relays, eight debounced lines that count events without bound,
two settings, and the time of the last command. Times are true times, events are
commands already read off their strings, and a command is answered by a number.

* `Device.execute`, `Device.answer`: what a command does, and what it answers.
* `Device.step`: one event. A watchdog check that comes more than the timeout
  after the last command opens the relays and disables the watchdog.
* `replyFormat`: the base and the width in which the number is written.
-/
namespace Relacon.L6
open Relacon.Core Relacon.L2 Relacon.L3

/-! ## The state -/

/-- One input line: the phase of its debouncing, the time of the edge it settles
from, and the events since the last reset. -/
structure Line where
  phase : DebounceState
  edge : Nat
  events : Nat
  deriving DecidableEq, Repr

structure Device where
  /-- `true` is closed -/
  relays : Fin 8 → Bool
  lines : Fin 8 → Line
  debounce : Fin 3
  watchdog : Fin 4
  lastCommand : Nat

def debounceUs (i : Fin 3) : Nat := (#v[10000, 1000, 100] : Vector Nat 3)[i]

/-- 0 is no timeout. -/
def timeoutUs (i : Fin 4) : Nat := (#v[0, 1000000, 10000000, 60000000] : Vector Nat 4)[i]

def Device.init : Device where
  relays _ := false
  lines _ := ⟨.waitingForRisingEdge, 0, 0⟩
  debounce := DEBOUNCE_SETTING_1MS
  watchdog := WATCHDOG_SETTING_DISABLED
  lastCommand := 0

/-! ## Events -/

inductive DeviceEv where
  /-- a command, or something that is none -/
  | command (time : Nat) (inputs : Fin 8 → Bool) (c : Option Command)
  | sample (time : Nat) (inputs : Fin 8 → Bool)
  | check (time : Nat)
  | idle

/-- An event is counted when it is seen, and the line then settles for `d` us. -/
def Line.sample (d time : Nat) (asserted : Bool) (l : Line) : Line :=
  match l.phase with
  | .waitingForRisingEdge => if asserted then ⟨.settling, time, l.events + 1⟩ else l
  | .settling =>
    if d < time - l.edge then
      { l with phase := if asserted then .waitingForFallingEdge else .waitingForRisingEdge }
    else l
  | .waitingForFallingEdge => if asserted then l else { l with phase := .waitingForRisingEdge }

def Device.execute (d : Device) : Command → Device
  | .setRelay n => { d with relays := Function.update d.relays n true }
  | .clearRelay n => { d with relays := Function.update d.relays n false }
  | .writeRelayPort v => { d with relays := fun n => v.toNat.testBit n }
  | .readAndResetEventCounter n =>
    { d with lines := Function.update d.lines n { d.lines n with events := 0 } }
  | .setDebounce i => { d with debounce := i }
  | .setWatchdog i => { d with watchdog := i }
  | _ => d

/-- The timeout in force has elapsed since the last command. -/
def Device.Expired (d : Device) (time : Nat) : Prop :=
  timeoutUs d.watchdog ≠ 0 ∧ timeoutUs d.watchdog < time - d.lastCommand

instance (d : Device) (time : Nat) : Decidable (d.Expired time) := inferInstanceAs (Decidable (_ ∧ _))

def Device.step (d : Device) : DeviceEv → Device
  | .command time _ c => { c.elim d d.execute with lastCommand := time }
  | .sample time inputs =>
    { d with lines := fun n => (d.lines n).sample (debounceUs d.debounce) time (inputs n) }
  | .check time =>
    if d.Expired time then { d with relays := fun _ => false, watchdog := WATCHDOG_SETTING_DISABLED }
    else d
  | .idle => d

def device : Machine Device DeviceEv := ⟨.init, Device.step⟩

/-! ## Answers -/

def Device.answer (d : Device) (inputs : Fin 8 → Bool) : Command → Option Nat
  | .readSingleRelay n => some (d.relays n).toNat
  | .readRelayPort => some (Nat.ofBits d.relays)
  | .readInputLine y n => some (inputs (y.channel n)).toNat
  | .readInputPort y | .readInputPortDecimal y => some (Nat.ofBits fun n => inputs (y.channel n))
  | .readInputs => some (Nat.ofBits inputs)
  | .readEventCounter n | .readAndResetEventCounter n => some ((d.lines n).events % 2 ^ 16)
  | .getDebounce => some d.debounce.val
  | .getWatchdog => some d.watchdog.val
  | .setRelay _ | .clearRelay _ | .writeRelayPort _ | .setDebounce _ | .setWatchdog _ => none

/-- The command answered by an event, and the number it answers. -/
def Device.reply (d : Device) : DeviceEv → Option (Command × Nat)
  | .command _ inputs c => c.bind fun c => (d.answer inputs c).map (c, ·)
  | _ => none

/-- Base and number of digits of an answer. -/
def replyFormat : Command → Nat × Nat
  | .readSingleRelay _ | .readInputLine _ _ => (2, 1)
  | .readInputPort _ => (2, 4)
  | .readInputPortDecimal _ => (10, 2)
  | .readRelayPort | .readInputs => (10, 3)
  | .readEventCounter _ | .readAndResetEventCounter _ => (10, 5)
  | .getDebounce | .getWatchdog => (10, 1)
  | .setRelay _ | .clearRelay _ | .writeRelayPort _ | .setDebounce _ | .setWatchdog _ => (10, 0)

def hasAnswer (c : Command) : Bool := 0 < (replyFormat c).2

theorem answer_isSome (d : Device) (ins : Fin 8 → Bool) (c : Command) :
    (d.answer ins c).isSome = hasAnswer c := by
  cases c <;> rfl

end Relacon.L6
