import Relacon.L3Protocol.Answers
import Relacon.L3Protocol.Syntax
import Relacon.L4Firmware.Run

/-!
# Settings read back what is in force

The debounce time and the watchdog timeout are stored as times, by the modules
that use them, and the queries `DB` and `WD` look the index up. `lastDebounce`
and `lastWatchdog` are the indices set last, read off the command strings and the
watchdog test. `settings_read_back`: after every run the stored times are those
of the two indices, the queries succeed and answer them, and setting what was
answered changes nothing.
-/
namespace Relacon.L4
open Relacon.Core Relacon.L1 Relacon.L2 Relacon.L3

/-- The index a `DB` setter puts in force. -/
def setsDebounce (_ : Firmware) (e : Step) : Option (Fin 3) :=
  match e.action with
  | .processCommand buf _ => (argsOf DB (cstr buf)).bind (settingArg 3)
  | _ => none

/-- The index a `WD` setter puts in force; a timeout puts 0 in force. -/
def setsWatchdog (fw : Firmware) (e : Step) : Option (Fin 4) :=
  match e.action with
  | .processCommand buf _ => (argsOf WD (cstr buf)).bind (settingArg 4)
  | .eventCounterTask => none
  | .watchdogTask => if timedOut e.readings fw.watchdog then some WATCHDOG_SETTING_DISABLED else none

def lastDebounce (evs : List Step) : Fin 3 :=
  (firmware.latest setsDebounce evs).getD DEBOUNCE_SETTING_1MS

def lastWatchdog (evs : List Step) : Fin 4 :=
  (firmware.latest setsWatchdog evs).getD WATCHDOG_SETTING_DISABLED

/-! ## The times in force -/

theorem debounce_set (fw : Firmware) (e : Step) : (step fw e).events.debounceTimeUs =
    ((setsDebounce fw e).map debounceTimeOf).getD fw.events.debounceTimeUs := by
  rw [step_debounce, setsDebounce]
  cases e.action with
  | processCommand buf len =>
    simp only
    cases hset : (argsOf DB (cstr buf)).bind (settingArg 3) with
    | some i => rw [decode_setDebounce_iff.mpr hset]; rfl
    | none =>
      split
      · rename_i i hd
        rw [decode_setDebounce_iff.mp hd] at hset
        cases hset
      · rfl
  | eventCounterTask => rfl
  | watchdogTask => rfl

theorem period_set (fw : Firmware) (e : Step) : (step fw e).watchdog.watchdogTimeoutPeriodUs =
    ((setsWatchdog fw e).map watchdogTimeOf).getD fw.watchdog.watchdogTimeoutPeriodUs := by
  rw [step_period, setsWatchdog]
  cases e.action with
  | processCommand buf len =>
    simp only
    cases hset : (argsOf WD (cstr buf)).bind (settingArg 4) with
    | some i => rw [decode_setWatchdog_bind.mpr hset]; rfl
    | none =>
      split
      · rename_i i hd
        rw [decode_setWatchdog_bind.mp hd] at hset
        cases hset
      · rfl
  | eventCounterTask => rfl
  | watchdogTask =>
    simp only
    split <;> rfl

theorem debounce_run (evs : List Step) :
    (firmware.run evs).events.debounceTimeUs = debounceTimeOf (lastDebounce evs) :=
  firmware.latest_getD_map (g := fun fw => fw.events.debounceTimeUs) (by decide) debounce_set evs

theorem period_run (evs : List Step) :
    (firmware.run evs).watchdog.watchdogTimeoutPeriodUs = watchdogTimeOf (lastWatchdog evs) :=
  firmware.latest_getD_map (g := fun fw => fw.watchdog.watchdogTimeoutPeriodUs) (by decide)
    period_set evs

theorem debounceTimeOf_injective : Function.Injective debounceTimeOf := by
  intro i j
  revert i j
  decide

theorem watchdogTimeOf_injective : Function.Injective watchdogTimeOf := by
  intro i j
  revert i j
  decide

/-! ## Queries and setters -/

section
variable (r : Readings) {buf : List UInt8} (len : Nat) {fw : Firmware}

/-- A query in a state with setting `i` answers `i`. -/
theorem query_debounce {i : Fin 3} (hi : fw.events.debounceTimeUs = debounceTimeOf i)
    (h : argsOf DB (cstr buf) = some []) :
    (aduProtocolProcessCommand r buf len fw).1 = true ∧
      (aduProtocolProcessCommand r buf len fw).2.response.bytes = [asciiDigit i] := by
  have hd : decode (cstr buf) = some .getDebounce := decode_of_args (h := .debounceSetting) h rfl
  have hsuccess : (exec r fw .getDebounce).1 = true := by
    simp only [exec_success, hi, debounceTimeOf_mem, decide_true]
  rw [← queryAnswer_debounce, ← hi]
  exact responds r buf len fw hd hsuccess

theorem query_watchdog {i : Fin 4} (hi : fw.watchdog.watchdogTimeoutPeriodUs = watchdogTimeOf i)
    (h : argsOf WD (cstr buf) = some []) :
    (aduProtocolProcessCommand r buf len fw).1 = true ∧
      (aduProtocolProcessCommand r buf len fw).2.response.bytes = [asciiDigit i] := by
  have hd : decode (cstr buf) = some .getWatchdog := decode_of_args (h := .watchdogSetting) h rfl
  have hsuccess : (exec r fw .getWatchdog).1 = true := by
    simp only [exec_success, hi, watchdogTimeOf_mem, decide_true]
  rw [← queryAnswer_watchdog, ← hi]
  exact responds r buf len fw hd hsuccess

theorem set_debounce {i : Fin 3} (h : argsOf DB (cstr buf) = some [asciiDigit i]) :
    (aduProtocolProcessCommand r buf len fw).2.events.debounceTimeUs = debounceTimeOf i := by
  have hset : setsDebounce fw ⟨r, .processCommand buf len⟩ = some i := by
    show (argsOf DB (cstr buf)).bind (settingArg 3) = some i
    rw [h, Option.bind_some, (settingArg_iff (by decide)).mpr (.inl rfl)]
  have hstep := debounce_set fw ⟨r, .processCommand buf len⟩
  rwa [hset] at hstep

theorem set_watchdog {i : Fin 4} (h : argsOf WD (cstr buf) = some [asciiDigit i]) :
    (aduProtocolProcessCommand r buf len fw).2.watchdog.watchdogTimeoutPeriodUs =
      watchdogTimeOf i := by
  have hset : setsWatchdog fw ⟨r, .processCommand buf len⟩ = some i := by
    show (argsOf WD (cstr buf)).bind (settingArg 4) = some i
    rw [h, Option.bind_some, (settingArg_iff (by decide)).mpr (.inl rfl)]
  have hstep := period_set fw ⟨r, .processCommand buf len⟩
  rwa [hset] at hstep

end

/-- **Settings read back.** The indices set last are the ones in force, they are
what the queries answer, and setting them again changes nothing. -/
theorem settings_read_back (evs : List Step) :
    let fw := firmware.run evs
    let d := lastDebounce evs
    let w := lastWatchdog evs
    (∀ i, fw.events.debounceTimeUs = debounceTimeOf i ↔ i = d) ∧
    (∀ i, fw.watchdog.watchdogTimeoutPeriodUs = watchdogTimeOf i ↔ i = w) ∧
    (∀ r buf len, argsOf DB (cstr buf) = some [] →
      (aduProtocolProcessCommand r buf len fw).1 = true ∧
      (aduProtocolProcessCommand r buf len fw).2.response.bytes = [asciiDigit d]) ∧
    (∀ r buf len, argsOf WD (cstr buf) = some [] →
      (aduProtocolProcessCommand r buf len fw).1 = true ∧
      (aduProtocolProcessCommand r buf len fw).2.response.bytes = [asciiDigit w]) ∧
    (∀ r buf len, argsOf DB (cstr buf) = some [asciiDigit d] →
      (aduProtocolProcessCommand r buf len fw).2.events.debounceTimeUs =
        fw.events.debounceTimeUs) ∧
    (∀ r buf len, argsOf WD (cstr buf) = some [asciiDigit w] →
      (aduProtocolProcessCommand r buf len fw).2.watchdog.watchdogTimeoutPeriodUs =
        fw.watchdog.watchdogTimeoutPeriodUs) := by
  intro fw d w
  have hd : fw.events.debounceTimeUs = debounceTimeOf d := debounce_run evs
  have hw : fw.watchdog.watchdogTimeoutPeriodUs = watchdogTimeOf w := period_run evs
  refine ⟨fun i => ?_, fun i => ?_, fun r buf len => query_debounce r len hd,
    fun r buf len => query_watchdog r len hw, fun r buf len h => ?_, fun r buf len h => ?_⟩
  · rw [hd, debounceTimeOf_injective.eq_iff, eq_comm]
  · rw [hw, watchdogTimeOf_injective.eq_iff, eq_comm]
  · rw [set_debounce r len h, hd]
  · rw [set_watchdog r len h, hw]

end Relacon.L4
