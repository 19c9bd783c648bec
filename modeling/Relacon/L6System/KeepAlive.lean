import Relacon.Core.Parts
import Relacon.L6System.Silence

/-!
# A host that keeps the watchdog fed

`watchdog_invisible`: in any paced interleaving, the firmware is at all times in the
state, and has queued the reports, of a firmware that never polls its watchdog, if
and only if every poll of the watchdog comes at most the timeout in force after the
last command. It is a watchdog that a host can forget about as long as it keeps
sending, whatever it sends.

`heard` carries the time of the last command along; the device has it too, and the
device says whether a poll does anything (`poll_idle_iff`).
-/
namespace Relacon.L6
open Relacon.Core Relacon.L1 Relacon.L2 Relacon.L3 Relacon.L4 Relacon.L5

/-- The firmware, and the time of the last command. -/
def heard : Machine (Firmware × Nat) (Timed UsbAction) :=
  ⟨(init, 0), fun s e => ((usbStep s.1 e.usbStep).2, (commandAt e).getD s.2)⟩

theorem heard_run (evs : List (Timed UsbAction)) :
    heard.run evs = (timedUsb.run evs, (device.run (evs.map deviceEv)).lastCommand) := by
  induction evs using List.reverseRecOn with
  | nil => rfl
  | append_singleton h e ih =>
    rw [List.map_append, List.map_singleton, Machine.run_snoc, Machine.run_snoc, Machine.run_snoc, ih]
    exact Prod.ext rfl (lastCommand_step _ e).symm

/-- A poll of the watchdog comes at most the timeout in force after the last command. -/
def Fed (s : Firmware × Nat) (e : Timed UsbAction) : Prop :=
  e.action = .watchdogTask → s.1.watchdog.watchdogTimeoutPeriodUs ≠ 0 →
    e.time ≤ s.2 + s.1.watchdog.watchdogTimeoutPeriodUs.toNat

instance (s : Firmware × Nat) (e : Timed UsbAction) : Decidable (Fed s e) :=
  inferInstanceAs (Decidable (_ → _ → _))

/-- The steps that are not polls of the watchdog. -/
def unwatched (e : Timed UsbAction) : Bool := e.action ≠ .watchdogTask

/-- A poll of the watchdog does nothing if and only if the test of `WatchdogTask` fails. -/
theorem watchdog_idle_iff (fw : Firmware) (r : Readings) :
    (usbStep fw ⟨r, .watchdogTask⟩).2 = fw ↔ ¬ timedOut r fw.watchdog = true := by
  refine ⟨fun h hto => ?_, fun hto => ?_⟩
  · -- it disables a watchdog that was not disabled
    have hperiod := step_period fw ⟨r, .watchdogTask⟩
    simp only [hto, if_true] at hperiod
    simp only [usbStep] at h
    rw [h] at hperiod
    exact ((timedOut_iff r fw.watchdog).mp hto).1 hperiod
  · simp only [usbStep, step, watchdogTask, hto]
    rfl

theorem poll_idle_iff {start : Nat} {pre : List (Timed UsbAction)} {e : Timed UsbAction}
    (h : Paced start (pre ++ [e])) (ha : e.action = .watchdogTask) :
    (usbStep (timedUsb.run pre) e.usbStep).2 = timedUsb.run pre ↔ Fed (heard.run pre) e := by
  obtain ⟨hpre, hadmits⟩ := Machine.always_snoc.mp h
  have himpl := implements_run hpre
  have hexp := expired_iff himpl hadmits.forward (hadmits.check ha) e.gpioA e.gpioB
  have hstep : e.usbStep = ⟨e.readings, .watchdogTask⟩ := by rw [Timed.usbStep, ha]
  rw [hstep, watchdog_idle_iff, heard_run, Fed]
  refine (not_congr hexp).trans ?_
  rw [Device.Expired, ← himpl.timeoutUs_eq, not_and, ne_eq, ne_eq, ← UInt32.toNat_inj]
  simp only
  refine ⟨fun hlt _ hne => ?_, fun hle hne => ?_⟩
  · have := hlt hne
    omega
  · have := hle ha hne
    omega

/-- **The watchdog is invisible to a host that keeps it fed**, and to no other. -/
theorem watchdog_invisible (start : Nat) (evs : List (Timed UsbAction)) (h : Paced start evs) :
    (∀ seen, seen <+: evs →
      timedUsb.run (seen.filter unwatched) = timedUsb.run seen ∧
        (timedUsb.trace queues (seen.filter unwatched)).reduceOption =
          (timedUsb.trace queues seen).reduceOption) ↔
      heard.Always Fed evs := by
  have hfilter : (∀ seen, seen <+: evs → (timedUsb.logged queues).run (seen.filter unwatched) =
      (timedUsb.logged queues).run seen) ↔ _ := Machine.run_filter_iff
  simp only [Machine.logged_run, Prod.mk.injEq] at hfilter
  rw [hfilter]
  refine forall_congr' fun pre => forall_congr' fun e => forall_congr' fun post =>
    forall_congr' fun he => ?_
  have hpaced : Paced start (pre ++ [e]) := (pace start).always_append (b := post) (by
    rw [List.append_assoc, List.singleton_append, ← he]
    exact h)
  rw [Machine.logged_run]
  by_cases ha : e.action = .watchdogTask
  · have hkeep : unwatched e = false := by simp [unwatched, ha]
    have hnone : queues (timedUsb.run pre) e = none := by simp [queues, usbStep, Timed.usbStep, ha]
    simp only [hkeep, Machine.logged_step, hnone, Option.toList_none, List.append_nil, Prod.mk.injEq,
      and_true, true_imp_iff]
    exact poll_idle_iff hpaced ha
  · have hkeep : unwatched e = true := by simp [unwatched, ha]
    simp [hkeep, Fed, ha]

/-- With `WD1` the relay stays closed over two polls, neither more than a second after
a command, valid or not. -/
theorem watchdog_invisible_second :
    let command (t : Nat) (cs : List Char) : Timed UsbAction :=
      ⟨t, 0, 0, .setReport 1 .output (ascii cs ++ [0]) 7 (.replicate _ 0)⟩
    let poll (t : Nat) : Timed UsbAction := ⟨t, 0, 0, .watchdogTask⟩
    timedUsb.run [command 4 ['W', 'D', '1'], command 5 ['S', 'K', '0'], command 900000 ['X']] =
      timedUsb.run [command 4 ['W', 'D', '1'], command 5 ['S', 'K', '0'], poll 600000,
        command 900000 ['X'], poll 1900000] := by
  intro command poll
  have h : Paced 0 [command 4 ['W', 'D', '1'], command 5 ['S', 'K', '0'], poll 600000,
      command 900000 ['X'], poll 1900000] := by decide
  have hfed := (watchdog_invisible 0 _ h).mpr (by decide +kernel)
  exact (hfed _ (List.prefix_refl _)).1

end Relacon.L6
