import Relacon.L6System.DeviceRefinement

/-!
# A host that falls silent

The watchdog is there for a host that dies: if no command arrives for the timeout,
all relays open. `silence_opens` says when, for the main loop as a whole. After
some iterations with a timeout `T` in force and the last command at `L`, let only
iterations without commands follow. Then the relays and the timeout stay as they
are as long as no iteration ends later than `L + T`, and after the first one that
does all relays are open and the watchdog is disabled. If iterations take at most
`Δ`, that one ends by `L + T + Δ`.

The invariant is about the abstract device (`Silenced`): its watchdog is not
expired at the end of an iteration, because the last thing an iteration does is
the check.
-/
namespace Relacon.L6
open Relacon.Core Relacon.L1 Relacon.L2 Relacon.L3 Relacon.L4 Relacon.L5

/-! ## Commands and silence -/

/-- When a command reached the processor in this step. -/
def commandAt (e : Timed UsbAction) : Option Nat :=
  match e.action with
  | .setReport reportId reportType buffer bufsize _ =>
    (commandOf reportId reportType buffer bufsize).map fun _ => e.time
  | _ => none

/-- When the last command reached the processor; 0 if there was none. -/
def lastCommandAt (its : List Iteration) : Nat :=
  (timedUsb.latest (fun _ e => commandAt e) (its.flatMap Iteration.steps)).getD 0

/-- TinyUSB makes callbacks, but none brings a command. -/
def Iteration.Silent (it : Iteration) : Prop := ∀ c ∈ it.callbacks, commandAt c.callback = none

instance (it : Iteration) : Decidable it.Silent :=
  inferInstanceAs (Decidable (∀ c ∈ it.callbacks, commandAt c.callback = none))

theorem lastCommand_step (d : Device) (e : Timed UsbAction) :
    (d.step (deviceEv e)).lastCommand = (commandAt e).getD d.lastCommand := by
  obtain ⟨t, a, b, action⟩ := e
  cases action with
  | setReport reportId reportType buffer bufsize rspBuf =>
    simp only [deviceEv, commandAt]
    cases commandOf reportId reportType buffer bufsize <;> rfl
  | getReport _ _ _ _ => rfl
  | eventCounterTask => rfl
  | watchdogTask =>
    simp only [deviceEv, Device.step, commandAt]
    split <;> rfl

theorem lastCommand_run (evs : List (Timed UsbAction)) :
    (device.run (evs.map deviceEv)).lastCommand =
      (timedUsb.latest (fun _ e => commandAt e) evs).getD 0 := by
  induction evs using List.reverseRecOn with
  | nil => rfl
  | append_singleton h e ih =>
    have hstep := lastCommand_step (device.run (h.map deviceEv)) e
    rw [List.map_append, List.map_singleton, Machine.run_snoc, Machine.latest_snoc]
    rw [ih] at hstep
    refine hstep.trans ?_
    cases commandAt e <;> rfl

/-- A callback without a command is nothing to the device. -/
theorem deviceEv_silent {c : Timed Callback} (h : commandAt c.callback = none) :
    deviceEv c.callback = .idle := by
  obtain ⟨t, a, b, callback⟩ := c
  cases callback with
  | setReport reportId reportType buffer bufsize rspBuf =>
    have hnone : commandOf reportId reportType buffer bufsize = none := by
      simpa [commandAt, Timed.callback, Callback.action] using h
    simp only [deviceEv, Timed.callback, Callback.action, hnone]
  | getReport _ _ _ _ => rfl

/-! ## The device at the end of an iteration -/

theorem not_expired_check (d : Device) (t : Nat) : ¬ (d.step (.check t)).Expired t := by
  by_cases h : d.Expired t
  · have hstep : d.step (.check t) = { d with
        relays := fun _ => false, watchdog := WATCHDOG_SETTING_DISABLED } := if_pos h
    rw [hstep]
    exact fun he => he.1 rfl
  · have hstep : d.step (.check t) = d := if_neg h
    rwa [hstep]

theorem not_expired_run (start : Nat) (its : List Iteration) :
    ¬ (deviceAfter its).Expired ((loopClock start).run its) := by
  induction its using List.reverseRecOn with
  | nil => exact fun h => h.1 rfl
  | append_singleton its it ih =>
    rw [deviceAfter_snoc, Machine.run_snoc, Iteration.steps, List.map_append, Machine.runFrom_append]
    exact not_expired_check _ _

/-- In a silent iteration only the check can do something to the relays. -/
theorem silent_iteration (d : Device) {it : Iteration} (h : it.Silent) :
    ∃ lines, device.runFrom d (it.steps.map deviceEv) =
      ({ d with lines := lines } : Device).step (.check it.watchdog.time) := by
  have hidle : (it.callbacks.map Timed.callback).map deviceEv =
      it.callbacks.map fun _ => DeviceEv.idle := by
    rw [List.map_map]
    exact List.map_congr_left fun c hc => deviceEv_silent (h c hc)
  have hcalls : ∀ cs : List (Timed Callback),
      device.runFrom d (cs.map fun _ => DeviceEv.idle) = d := by
    intro cs
    induction cs with
    | nil => rfl
    | cons c cs ih => exact ih
  rw [Iteration.steps, List.map_append, Machine.runFrom_append, hidle, hcalls]
  exact ⟨_, rfl⟩

/-- The device `d` some silent time after it was `d₀`. -/
structure Silenced (d₀ d : Device) (now : Nat) : Prop where
  lastCommand : d.lastCommand = d₀.lastCommand
  relays : d.relays = if d₀.Expired now then fun _ => false else d₀.relays
  watchdog : d.watchdog = if d₀.Expired now then WATCHDOG_SETTING_DISABLED else d₀.watchdog

theorem silenced_iteration {d₀ d : Device} {now : Nat} {it : Iteration} (h : Silenced d₀ d now)
    (hit : it.Admissible now) (hs : it.Silent) :
    Silenced d₀ (device.runFrom d (it.steps.map deviceEv)) it.watchdog.time := by
  obtain ⟨lines, hrun⟩ := silent_iteration d hs
  have hlate : now ≤ it.watchdog.time :=
    List.rel_of_pairwise_cons hit.ordered (by simp [Iteration.times])
  rw [hrun]
  by_cases hfired : d₀.Expired now
  · -- it has fired before, and stays disabled
    have hfired' : d₀.Expired it.watchdog.time := ⟨hfired.1, by have := hfired.2; omega⟩
    have hwatchdog : d.watchdog = WATCHDOG_SETTING_DISABLED := by rw [h.watchdog, if_pos hfired]
    have hquiet : ({ d with lines := lines } : Device).step (.check it.watchdog.time) =
        { d with lines := lines } := if_neg fun he => he.1 (by
          show timeoutUs d.watchdog = 0
          rw [hwatchdog]
          rfl)
    rw [hquiet]
    exact ⟨h.lastCommand, by rw [if_pos hfired', h.relays, if_pos hfired], by rw [if_pos hfired', hwatchdog]⟩
  · have hwatchdog : d.watchdog = d₀.watchdog := by rw [h.watchdog, if_neg hfired]
    have hrelays : d.relays = d₀.relays := by rw [h.relays, if_neg hfired]
    have hexp : ({ d with lines := lines } : Device).Expired it.watchdog.time ↔
        d₀.Expired it.watchdog.time := by
      simp only [Device.Expired, hwatchdog, h.lastCommand]
    by_cases hfires : d₀.Expired it.watchdog.time
    · rw [Device.step, if_pos (hexp.mpr hfires)]
      exact ⟨h.lastCommand, by rw [if_pos hfires], by rw [if_pos hfires]⟩
    · rw [Device.step, if_neg (mt hexp.mp hfires)]
      exact ⟨h.lastCommand, by rw [if_neg hfires, hrelays], by rw [if_neg hfires, hwatchdog]⟩

theorem silenced_run {start : Nat} {before : List Iteration} (after : List Iteration)
    (h : LoopTimed start (before ++ after)) (hs : ∀ it ∈ after, it.Silent) :
    Silenced (deviceAfter before) (deviceAfter (before ++ after))
      ((loopClock start).run (before ++ after)) := by
  induction after using List.reverseRecOn with
  | nil =>
    have hno := not_expired_run start before
    rw [List.append_nil]
    exact ⟨rfl, by rw [if_neg hno], by rw [if_neg hno]⟩
  | append_singleton after it ih =>
    rw [← List.append_assoc] at h ⊢
    rw [LoopTimed, Machine.always_snoc] at h
    rw [deviceAfter_snoc, Machine.run_snoc]
    exact silenced_iteration (ih h.1 fun it' hit' => hs it' (by simp [hit'])) h.2 (hs it (by simp))

/-! ## The firmware -/

/-- The time of the last command, plus the timeout in force. -/
def deadline (its : List Iteration) : Nat :=
  lastCommandAt its + (mainLoop.run its).watchdog.watchdogTimeoutPeriodUs.toNat

/-- There is a timeout in force, and its deadline is past at `now`. -/
def Overdue (its : List Iteration) (now : Nat) : Prop :=
  (mainLoop.run its).watchdog.watchdogTimeoutPeriodUs ≠ 0 ∧ deadline its < now

instance (its : List Iteration) (now : Nat) : Decidable (Overdue its now) :=
  inferInstanceAs (Decidable (_ ∧ _))

section
variable {start : Nat} {before after : List Iteration}

theorem overdue_iff (h : LoopTimed start before) (now : Nat) :
    (deviceAfter before).Expired now ↔ Overdue before now := by
  have hT := (mainLoop_implements h).timeoutUs_eq
  have hL : (deviceAfter before).lastCommand = lastCommandAt before := lastCommand_run _
  rw [Device.Expired, Overdue, deadline, ← hT, hL, ne_eq, ne_eq, ← UInt32.toNat_inj]
  refine and_congr_right fun _ => ?_
  omega

/-- The state after a silent time. -/
theorem silence_exact (h : LoopTimed start (before ++ after)) (hs : ∀ it ∈ after, it.Silent) :
    let fw := mainLoop.run before
    let fw' := mainLoop.run (before ++ after)
    let now := (loopClock start).run (before ++ after)
    (Overdue before now → fw'.relays = 0 ∧ fw'.watchdog.watchdogTimeoutPeriodUs = 0) ∧
    (¬ Overdue before now → fw'.relays = fw.relays ∧
      fw'.watchdog.watchdogTimeoutPeriodUs = fw.watchdog.watchdogTimeoutPeriodUs) := by
  intro fw fw' now
  have hbefore : LoopTimed start before := (loopClock start).always_append h
  have himpl := mainLoop_implements hbefore
  have himpl' := mainLoop_implements h
  have hsil := silenced_run after h hs
  rw [← overdue_iff hbefore]
  refine ⟨fun he => ⟨byte_ext fun i hi => ?_, ?_⟩, fun he => ⟨byte_ext fun i hi => ?_, ?_⟩⟩
  · have hbit := himpl'.relays ⟨i, hi⟩
    rw [hsil.relays, if_pos he] at hbit
    rw [bitSet_zero]
    exact hbit
  · rw [himpl'.watchdog, hsil.watchdog, if_pos he]
    rfl
  · have hbit := himpl'.relays ⟨i, hi⟩
    rw [hsil.relays, if_neg he, ← himpl.relays] at hbit
    exact hbit
  · rw [himpl'.watchdog, hsil.watchdog, if_neg he, himpl.watchdog]

end

/-- **Silence opens the relays**, in time and not earlier. -/
theorem silence_opens (start Δ : Nat) (before after : List Iteration)
    (h : LoopTimed start (before ++ after)) (hs : ∀ it ∈ after, it.Silent)
    (hΔ : (loopClock start).Always (fun now it => it.watchdog.time ≤ now + Δ) (before ++ after)) :
    (∀ seen, seen <+: after →
      let fw := mainLoop.run before
      let fw' := mainLoop.run (before ++ seen)
      let now := (loopClock start).run (before ++ seen)
      (Overdue before now → fw'.relays = 0 ∧ fw'.watchdog.watchdogTimeoutPeriodUs = 0) ∧
      (¬ Overdue before now → fw'.relays = fw.relays ∧
        fw'.watchdog.watchdogTimeoutPeriodUs = fw.watchdog.watchdogTimeoutPeriodUs)) ∧
    (Overdue before ((loopClock start).run (before ++ after)) →
      ∃ seen, seen <+: after ∧ (loopClock start).run (before ++ seen) ≤ deadline before + Δ ∧
        (mainLoop.run (before ++ seen)).relays = 0) := by
  have hbefore : LoopTimed start before := (loopClock start).always_append h
  have hexact : ∀ seen, seen <+: after → LoopTimed start (before ++ seen) ∧
      ∀ it ∈ seen, it.Silent := by
    rintro seen ⟨rest, rfl⟩
    rw [← List.append_assoc] at h
    exact ⟨(loopClock start).always_append h, fun it hit => hs it (by simp [hit])⟩
  refine ⟨fun seen hseen => silence_exact (hexact seen hseen).1 (hexact seen hseen).2, fun hover => ?_⟩
  obtain ⟨hT, hlate⟩ := hover
  have hintime : (loopClock start).run before ≤ deadline before := by
    have hno := not_expired_run start before
    rw [overdue_iff hbefore] at hno
    exact Nat.le_of_not_lt fun hlt => hno ⟨hT, hlt⟩
  -- the iteration in which the deadline passes
  have hcross := (loopClock start).runFrom_unless (J := (· ≤ deadline before))
    (Q := fun now it => now ≤ deadline before ∧ deadline before < it.watchdog.time) after
    (fun _ it _ hnow => (Nat.lt_or_ge (deadline before) it.watchdog.time).symm.imp_right fun hlt =>
      ⟨hnow, hlt⟩) _ hintime
  rw [← Machine.run_append] at hcross
  obtain hnever | ⟨pre, it, post, rfl, hnow, hpast⟩ := hcross
  · exact (Nat.not_lt.mpr hnever hlate).elim
  · have hend : (loopClock start).run (before ++ (pre ++ [it])) = it.watchdog.time := by
      rw [← List.append_assoc, Machine.run_snoc]
      rfl
    have hseen : pre ++ [it] <+: pre ++ it :: post := ⟨post, by simp⟩
    have hprompt := hΔ (before ++ pre) it post (by simp)
    rw [Machine.run_append] at hprompt
    refine ⟨pre ++ [it], hseen, by omega, ?_⟩
    exact ((silence_exact (hexact _ hseen).1 (hexact _ hseen).2).1 ⟨hT, by omega⟩).1

/-- `WD1` at 5 us, and two iterations of 0.6 s: the relays open in the second one. -/
theorem silence_opens_second :
    let arm : Iteration :=
      ⟨[⟨4, 0, 0, .setReport 1 .output (ascii ['S', 'K', '0'] ++ [0]) 7 (.replicate _ 0)⟩,
        ⟨5, 0, 0, .setReport 1 .output (ascii ['W', 'D', '1'] ++ [0]) 7 (.replicate _ 0)⟩],
        ⟨6, 0, 0, ()⟩, ⟨7, 0, 0, ()⟩⟩
    let quiet (t : Nat) : Iteration := ⟨[], ⟨t, 0, 0, ()⟩, ⟨t, 0, 0, ()⟩⟩
    (mainLoop.run [arm, quiet 600000]).relays = 1 ∧
      (mainLoop.run [arm, quiet 600000, quiet 1200000]).relays = 0 := by
  intro arm quiet
  have h : LoopTimed 0 ([arm] ++ [quiet 600000, quiet 1200000]) := by decide
  have hs : ∀ it ∈ [quiet 600000, quiet 1200000], it.Silent := by decide
  have hΔ : (loopClock 0).Always (fun now it => it.watchdog.time ≤ now + 600000)
      ([arm] ++ [quiet 600000, quiet 1200000]) := by decide
  obtain ⟨hseen, -⟩ := silence_opens 0 600000 [arm] _ h hs hΔ
  obtain ⟨-, hkeeps⟩ := hseen [quiet 600000] ⟨[quiet 1200000], rfl⟩
  obtain ⟨hfires, -⟩ := hseen _ (List.prefix_refl _)
  have hopen : (mainLoop.run [arm]).relays = 1 := by decide +kernel
  exact ⟨(hkeeps (by decide +kernel)).1.trans hopen, (hfires (by decide +kernel)).1⟩

end Relacon.L6
