import Relacon.L4Firmware.Run

/-!
# The watchdog in true time

The watchdog compares 32-bit timer readings; here the run carries the true time.
`Expired` is the specification: a timeout is in force and more than that has
elapsed since the last command. `poll_exact`: in a run whose polls are at most
`MAX_POLL_GAP` apart (`WellTimed`), every poll opens the relays and disables the
watchdog if it is expired, and changes nothing if it is not.

The invariant (`Timing`): while a timeout `T` is in force, the last command was
at some `k` with `LastKickTimeUs` its reading, and the last poll was at most
`T` after `k`. The next poll is then less than a full turn of the timer after
`k`, so the test on readings is exact.
-/
namespace Relacon.L4
open Relacon.Core Relacon.L1 Relacon.L2 Relacon.L3

/-- A full turn of the timer, less the longest timeout. -/
def MAX_POLL_GAP : Nat := 2 ^ 32 - 1 - 60000000

/-! ## Admissible runs -/

/-- The times of the last step and of the last poll of the watchdog. -/
structure Clock where
  now : Nat
  poll : Nat

def Clock.next (c : Clock) (e : TimedStep) : Clock where
  now := e.time
  poll := if e.action = .watchdogTask then e.time else c.poll

def clock (start : Nat) : Machine Clock TimedStep := ⟨⟨start, start⟩, Clock.next⟩

/-- Time does not run backwards, and a poll is not too late after the last one. -/
def Clock.Admits (c : Clock) (e : TimedStep) : Prop :=
  c.now ≤ e.time ∧ (e.action = .watchdogTask → e.time ≤ c.poll + MAX_POLL_GAP)

instance (c : Clock) (e : TimedStep) : Decidable (c.Admits e) := inferInstanceAs (Decidable (_ ∧ (_ → _)))

def WellTimed (start : Nat) (evs : List TimedStep) : Prop := (clock start).Always Clock.Admits evs

instance (start : Nat) (evs : List TimedStep) : Decidable (WellTimed start evs) :=
  inferInstanceAs (Decidable ((clock start).Always Clock.Admits evs))

/-! ## The specification -/

def commandTime (_ : Firmware) (e : TimedStep) : Option Nat :=
  match e.action with
  | .processCommand _ _ => some e.time
  | _ => none

/-- The time of the last call of `AduProtocolProcessCommand`. -/
def lastCommand : List TimedStep → Option Nat := timed.latest commandTime

/-- At time `t` after the run `evs`, the timeout in force has elapsed since the last command. -/
def Expired (evs : List TimedStep) (t : Nat) : Prop :=
  (timed.run evs).watchdog.watchdogTimeoutPeriodUs ≠ 0 ∧ ∃ k, lastCommand evs = some k ∧
    (timed.run evs).watchdog.watchdogTimeoutPeriodUs.toNat < t - k

/-! ## The invariant -/

/-- The watchdog after a run, tied to the times of the last command and poll. -/
structure Timing (c : Clock) (last : Option Nat) (w : Watchdog) : Prop where
  order : c.poll ≤ c.now
  armed : w.watchdogTimeoutPeriodUs ≠ 0 → ∃ k, last = some k ∧ w.lastKickTimeUs = reading k ∧
    k ≤ c.now ∧ c.poll ≤ k + w.watchdogTimeoutPeriodUs.toNat

section
variable {c : Clock} {last : Option Nat} {fw : Firmware} {e : TimedStep}

/-- The test of `WatchdogTask` decides whether the timeout has elapsed in true time. -/
theorem timedOut_exact (hok : FwOk fw) (h : Timing c last fw.watchdog) (hc : c.Admits e)
    (ha : e.action = .watchdogTask) :
    timedOut e.toStep.readings fw.watchdog = true ↔
      fw.watchdog.watchdogTimeoutPeriodUs ≠ 0 ∧
        ∃ k, last = some k ∧ fw.watchdog.watchdogTimeoutPeriodUs.toNat < e.time - k := by
  rw [timedOut_iff]
  refine and_congr_right fun hT => ?_
  obtain ⟨k, rfl, hkick, hk, hpoll⟩ := h.armed hT
  have hle := hok.period_le
  have hgap := hc.2 ha
  have hnow := hc.1
  rw [MAX_POLL_GAP] at hgap
  rw [hkick, TimedStep.toStep, elapsed_iff (by omega) (by omega)]
  refine ⟨fun hlt => ?_, fun h => ?_⟩
  · exact ⟨k, rfl, hlt⟩
  · obtain ⟨k', hk', hlt⟩ := h
    cases hk'
    exact hlt

theorem timing_step (hok : FwOk fw) (h : Timing c last fw.watchdog) (hc : c.Admits e) :
    Timing (c.next e) ((commandTime fw e).or last) (step fw e.toStep).watchdog := by
  have hperiod := step_period fw e.toStep
  have hkick := step_lastKick fw e.toStep
  have hnow := hc.1
  have horder := h.order
  rw [show e.toStep.action = e.action from rfl] at hperiod hkick
  cases ha : e.action with
  | processCommand buf len =>
    simp only [ha] at hkick
    have hpoll : (c.next e).poll = c.poll := by simp [Clock.next, ha]
    refine ⟨by rw [hpoll]; exact horder.trans hnow, fun _ => ⟨e.time, ?_, hkick, Nat.le_refl _, ?_⟩⟩
    · simp [commandTime, ha]
    · rw [hpoll]; omega
  | eventCounterTask =>
    simp only [ha] at hkick hperiod
    have hpoll : (c.next e).poll = c.poll := by simp [Clock.next, ha]
    refine ⟨by rw [hpoll]; exact horder.trans hnow, fun hT => ?_⟩
    rw [hperiod] at hT
    obtain ⟨k, hlast, hk, hkn, hkp⟩ := h.armed hT
    exact ⟨k, by simp [commandTime, ha, hlast], hkick.trans hk, hkn.trans hnow, by rw [hpoll, hperiod]; exact hkp⟩
  | watchdogTask =>
    simp only [ha] at hkick hperiod
    have hpoll : (c.next e).poll = e.time := by simp [Clock.next, ha]
    refine ⟨hpoll.le, fun hT => ?_⟩
    by_cases hto : timedOut e.toStep.readings fw.watchdog = true
    · rw [if_pos hto] at hperiod
      exact (hT hperiod).elim
    · rw [if_neg hto] at hperiod
      rw [hperiod] at hT
      obtain ⟨k, hlast, hk, hkn, -⟩ := h.armed hT
      refine ⟨k, by simp [commandTime, ha, hlast], hkick.trans hk, hkn.trans hnow, ?_⟩
      -- not expired, so the poll was at most the timeout after the last command
      rw [timedOut_exact hok h hc ha] at hto
      have hle : ¬ fw.watchdog.watchdogTimeoutPeriodUs.toNat < e.time - k :=
        fun hlt => hto ⟨hT, k, hlast, hlt⟩
      rw [hpoll, hperiod]
      omega

end

theorem timing_run (start : Nat) (evs : List TimedStep) (hok : WellTimed start evs) :
    Timing ((clock start).run evs) (lastCommand evs) (timed.run evs).watchdog := by
  have hI : timed.HistInductive (WellTimed start)
      fun evs fw => Timing ((clock start).run evs) (lastCommand evs) fw.watchdog :=
    { ok := fun h e hok => (Machine.always_snoc.mp hok).1
      init := ⟨Nat.le_refl _, fun h => (h rfl).elim⟩
      step := by
        intro h e hok hT
        rw [Machine.run_snoc, lastCommand, Machine.latest_snoc]
        exact timing_step (ok_timed h) hT (Machine.always_snoc.mp hok).2 }
  exact hI.run evs hok

/-! ## Polls -/

/-- **Watchdog timing is exact**, at every poll of every admissible run. -/
theorem poll_exact (start : Nat) (evs : List TimedStep) (hok : WellTimed start evs)
    (pre post : List TimedStep) (e : TimedStep) (he : evs = pre ++ e :: post)
    (ha : e.action = .watchdogTask) :
    (Expired pre e.time → timed.run (pre ++ [e]) = { timed.run pre with
      gpioAOdr := boardWriteRelays 0,
      watchdog := { (timed.run pre).watchdog with watchdogTimeoutPeriodUs := 0 } }) ∧
    (¬ Expired pre e.time → timed.run (pre ++ [e]) = timed.run pre) := by
  have hpre : WellTimed start pre := (clock start).always_append (he ▸ hok)
  have hexact := timedOut_exact (ok_timed pre) (timing_run start pre hpre) (hok pre e post he) ha
  have hstep : timed.run (pre ++ [e]) = step (timed.run pre) e.toStep := timed.run_snoc pre e
  have hact : e.toStep.action = .watchdogTask := ha
  rw [hstep, Expired, ← hexact, step]
  simp only [hact, watchdogTask]
  refine ⟨fun hto => ?_, fun hto => ?_⟩
  · rw [if_pos hto]
    rfl
  · rw [if_neg hto]

/-- With relay 0 closed and `WD1` at 5 us, a poll at 1000005 us changes nothing, and one at
1000006 us opens the relay. -/
theorem poll_exact_fires :
    let close : TimedStep := ⟨4, 0, 0, .processCommand (ascii ['S', 'K', '0'] ++ [0]) 4⟩
    let arm : TimedStep := ⟨5, 0, 0, .processCommand (ascii ['W', 'D', '1'] ++ [0]) 4⟩
    let poll (t : Nat) : TimedStep := ⟨t, 0, 0, .watchdogTask⟩
    (timed.run [close, arm]).relays = 1 ∧
      timed.run ([close, arm] ++ [poll 1000005]) = timed.run [close, arm] ∧
      timed.run ([close, arm] ++ [poll 1000006]) = { timed.run [close, arm] with
        gpioAOdr := boardWriteRelays 0,
        watchdog := { (timed.run [close, arm]).watchdog with watchdogTimeoutPeriodUs := 0 } } := by
  intro close arm poll
  have hearly : WellTimed 0 ([close, arm] ++ [poll 1000005]) := by decide
  have hlate : WellTimed 0 ([close, arm] ++ [poll 1000006]) := by decide
  have hlast : lastCommand [close, arm] = some 5 := rfl
  have hperiod : (timed.run [close, arm]).watchdog.watchdogTimeoutPeriodUs = 1000000 := by
    decide +kernel
  refine ⟨by decide +kernel, ?_, ?_⟩
  · refine (poll_exact 0 _ hearly [close, arm] [] _ rfl rfl).2 ?_
    rintro ⟨-, k, hk, hlt⟩
    rw [hlast, Option.some.injEq] at hk
    subst hk
    rw [hperiod] at hlt
    exact absurd hlt (by decide)
  · refine (poll_exact 0 _ hlate [close, arm] [] _ rfl rfl).1 ?_
    exact ⟨by rw [hperiod]; decide, 5, hlast, by rw [hperiod]; decide⟩

end Relacon.L4
