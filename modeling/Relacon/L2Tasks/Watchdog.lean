import Relacon.L1Board.Board

/-!
# The watchdog

`watchdogTask` is polled from the main loop; `watchdogKick` is called for every
processed command. The timeout period is in force while it is non-zero.
-/
namespace Relacon.L2
open Relacon.L1

def WATCHDOG_TIMEOUT_DISABLED : UInt32 := 0

/-- mirrors src/Watchdog.c:34-38 -/
structure Watchdog where
  lastKickTimeUs : UInt32
  watchdogTimeoutPeriodUs : UInt32
  deriving DecidableEq, Repr

/-- mirrors src/Watchdog.c:40-44 -/
def watchdogInit (w : Watchdog) : Watchdog :=
  { w with watchdogTimeoutPeriodUs := WATCHDOG_TIMEOUT_DISABLED }

/-- The test of `WatchdogTask`: enabled, and more than the period since the last kick. -/
def timedOut (r : Readings) (w : Watchdog) : Bool :=
  w.watchdogTimeoutPeriodUs != WATCHDOG_TIMEOUT_DISABLED &&
    decide (boardGetElapsedTimeUs r - w.lastKickTimeUs > w.watchdogTimeoutPeriodUs)

/-- On a timeout the watchdog disables itself and opens all relays.
mirrors src/Watchdog.c:46-63 -/
def watchdogTask (r : Readings) (odr : UInt16) (w : Watchdog) : UInt16 × Watchdog :=
  if timedOut r w then
    (boardWriteRelays 0, { w with watchdogTimeoutPeriodUs := WATCHDOG_TIMEOUT_DISABLED })
  else (odr, w)

/-- mirrors src/Watchdog.c:65-68 -/
def watchdogKick (r : Readings) (w : Watchdog) : Watchdog :=
  { w with lastKickTimeUs := boardGetElapsedTimeUs r }

/-- mirrors src/Watchdog.c:70-73 -/
def watchdogTimeoutSet (timeoutUs : UInt32) (w : Watchdog) : Watchdog :=
  { w with watchdogTimeoutPeriodUs := timeoutUs }

/-- mirrors src/Watchdog.c:75-78 -/
def watchdogTimeoutGet (w : Watchdog) : UInt32 := w.watchdogTimeoutPeriodUs

theorem timedOut_iff (r : Readings) (w : Watchdog) :
    timedOut r w = true ↔ w.watchdogTimeoutPeriodUs ≠ 0 ∧
      r.elapsedTimeUs - w.lastKickTimeUs > w.watchdogTimeoutPeriodUs := by
  simp [timedOut, WATCHDOG_TIMEOUT_DISABLED, boardGetElapsedTimeUs]

@[simp] theorem watchdogKick_period (r : Readings) (w : Watchdog) :
    (watchdogKick r w).watchdogTimeoutPeriodUs = w.watchdogTimeoutPeriodUs := rfl

@[simp] theorem watchdogKick_lastKick (r : Readings) (w : Watchdog) :
    (watchdogKick r w).lastKickTimeUs = r.elapsedTimeUs := rfl

@[simp] theorem watchdogTimeoutSet_period (t : UInt32) (w : Watchdog) :
    (watchdogTimeoutSet t w).watchdogTimeoutPeriodUs = t := rfl

end Relacon.L2
