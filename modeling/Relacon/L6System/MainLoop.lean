import Mathlib.Data.List.ReduceOption
import Relacon.Core.Refinement
import Relacon.L4Firmware.WatchdogTiming
import Relacon.L5Usb.Hid

/-!
# The main loop

`main` initialises the modules and then, for ever, services USB, polls the event
counters and polls the watchdog. An `Iteration` is one turn: the callbacks that
`UsbTask` makes, any number of them, and the two polls, each with the time and
with what the board shows to it. `mainLoop_run`: the loop is a run of the machine
in which callbacks and polls interleave freely, so what holds of every
interleaving holds of the loop.

The timer wraps, so the polls must not be too far apart. `Paced` bounds the two
kinds of polls in any interleaving; `paced_of_loopTimed`: in the loop it is enough
that no iteration takes longer than `MAX_ITERATION`, about 36 minutes.
-/
namespace Relacon.L6
open Relacon.Core Relacon.L1 Relacon.L2 Relacon.L3 Relacon.L4 Relacon.L5

/-- Something done at a time, and the input registers then. -/
structure Timed (α : Type) where
  time : Nat
  gpioA : UInt32
  gpioB : UInt32
  action : α
  deriving DecidableEq, Repr

def Timed.readings {α : Type} (e : Timed α) : Readings := ⟨reading e.time, e.gpioA, e.gpioB⟩

/-! ## Any interleaving, in true time -/

def Timed.usbStep (e : Timed UsbAction) : UsbStep := ⟨e.readings, e.action⟩

def timedUsb : Machine Firmware (Timed UsbAction) := ⟨init, fun fw e => (usbStep fw e.usbStep).2⟩

theorem timedUsb_run (evs : List (Timed UsbAction)) :
    timedUsb.run evs = usb.run (evs.map Timed.usbStep) := by
  induction evs using List.reverseRecOn with
  | nil => rfl
  | append_singleton h e ih =>
    rw [Machine.run_snoc, List.map_append, List.map_singleton, Machine.run_snoc, ← ih]
    rfl

/-! ## The loop -/

/-- The callbacks of TinyUSB that reach the firmware. -/
inductive Callback where
  | setReport (reportId : UInt8) (reportType : HidReportType) (buffer : List UInt8)
      (bufsize : UInt16) (rspBuf : Vector UInt8 CFG_TUD_HID_EP_BUFSIZE)
  | getReport (reportId : UInt8) (reportType : HidReportType) (buffer : List UInt8) (reqlen : UInt16)
  deriving DecidableEq, Repr

def Callback.action : Callback → UsbAction
  | .setReport reportId reportType buffer bufsize rspBuf =>
    .setReport reportId reportType buffer bufsize rspBuf
  | .getReport reportId reportType buffer reqlen => .getReport reportId reportType buffer reqlen

def Timed.callback (e : Timed Callback) : Timed UsbAction := { e with action := e.action.action }

structure Iteration where
  callbacks : List (Timed Callback)
  events : Timed Unit
  watchdog : Timed Unit
  deriving DecidableEq, Repr

/-- `tud_task` makes the callbacks that are due.
mirrors src/Usb.c:150-153 -/
def usbTask (callbacks : List (Timed Callback)) (fw : Firmware) : Firmware :=
  callbacks.foldl (fun fw e => (usbStep fw e.callback.usbStep).2) fw

/-- mirrors src/Main.c:44-49 -/
def mainStep (fw : Firmware) (it : Iteration) : Firmware :=
  let fw := usbTask it.callbacks fw
  let fw := { fw with events := eventCounterTask it.events.readings fw.events }
  let (odr, watchdog) := watchdogTask it.watchdog.readings fw.gpioAOdr fw.watchdog
  { fw with gpioAOdr := odr, watchdog := watchdog }

/-- mirrors src/Main.c:35-53 -/
def mainLoop : Machine Firmware Iteration := ⟨init, mainStep⟩

/-- The calls of one iteration, in order. -/
def Iteration.steps (it : Iteration) : List (Timed UsbAction) :=
  it.callbacks.map Timed.callback ++
    [{ it.events with action := .eventCounterTask }, { it.watchdog with action := .watchdogTask }]

theorem mainStep_eq (fw : Firmware) (it : Iteration) : mainStep fw it = timedUsb.runFrom fw it.steps := by
  have hcalls : usbTask it.callbacks fw = timedUsb.runFrom fw (it.callbacks.map Timed.callback) := by
    rw [usbTask, Machine.runFrom, List.foldl_map]
    rfl
  rw [Iteration.steps, Machine.runFrom_append, ← hcalls]
  rfl

theorem mainLoop_eq : mainLoop = timedUsb.batched Iteration.steps := by
  rw [mainLoop, Machine.batched]
  congr 1
  funext fw it
  exact mainStep_eq fw it

theorem mainLoop_run (its : List Iteration) :
    mainLoop.run its = timedUsb.run (its.flatMap Iteration.steps) := by
  rw [mainLoop_eq, Machine.batched_run]

/-- The input report queued by a step, if any. -/
def queues (fw : Firmware) (e : Timed UsbAction) : Option InReport := (usbStep fw e.usbStep).1

/-- The input reports queued in an iteration, in order. -/
def Iteration.reports (fw : Firmware) (it : Iteration) : List InReport :=
  (timedUsb.traceFrom queues fw it.steps).reduceOption

theorem mainLoop_reports (its : List Iteration) : (mainLoop.trace Iteration.reports its).flatten =
    (timedUsb.trace queues (its.flatMap Iteration.steps)).reduceOption := by
  have htrace := timedUsb.batched_trace Iteration.steps queues its
  rw [← mainLoop_eq] at htrace
  have hmap := mainLoop.trace_map (fun fw it => timedUsb.traceFrom queues fw it.steps)
    List.reduceOption its
  rw [← htrace, List.reduceOption, List.filterMap_flatten]
  exact congrArg List.flatten hmap

/-! ## Polls that come in time -/

/-- A full turn of the timer, less the longest debounce time. -/
def MAX_SAMPLE_GAP : Nat := 2 ^ 32 - 1 - 10000

/-- The times of the last step, the last watchdog poll and the last event poll. -/
structure Pace where
  now : Nat
  check : Nat
  sample : Option Nat

def Pace.next (p : Pace) (e : Timed UsbAction) : Pace where
  now := e.time
  check := if e.action = .watchdogTask then e.time else p.check
  sample := if e.action = .eventCounterTask then some e.time else p.sample

def pace (start : Nat) : Machine Pace (Timed UsbAction) := ⟨⟨start, start, none⟩, Pace.next⟩

/-- Time does not run backwards, and neither poll is too late after the last one of its kind. -/
structure Pace.Admits (p : Pace) (e : Timed UsbAction) : Prop where
  forward : p.now ≤ e.time
  check : e.action = .watchdogTask → e.time ≤ p.check + MAX_POLL_GAP
  sample : e.action = .eventCounterTask → ∀ q ∈ p.sample, e.time ≤ q + MAX_SAMPLE_GAP

instance (p : Pace) (e : Timed UsbAction) : Decidable (p.Admits e) :=
  decidable_of_iff (p.now ≤ e.time ∧ (e.action = .watchdogTask → e.time ≤ p.check + MAX_POLL_GAP) ∧
      (e.action = .eventCounterTask → ∀ q ∈ p.sample, e.time ≤ q + MAX_SAMPLE_GAP))
    ⟨fun h => ⟨h.1, h.2.1, h.2.2⟩, fun h => ⟨h.forward, h.check, h.sample⟩⟩

def Paced (start : Nat) (evs : List (Timed UsbAction)) : Prop := (pace start).Always Pace.Admits evs

instance (start : Nat) (evs : List (Timed UsbAction)) : Decidable (Paced start evs) :=
  inferInstanceAs (Decidable ((pace start).Always Pace.Admits evs))

/-! ## Iterations that end in time -/

def MAX_ITERATION : Nat := 2 ^ 31 - 5001

def Iteration.times (it : Iteration) : List Nat :=
  it.callbacks.map Timed.time ++ [it.events.time, it.watchdog.time]

/-- The calls are made in order, and the last one not too long after `now`. -/
structure Iteration.Admissible (now : Nat) (it : Iteration) : Prop where
  ordered : (now :: it.times).Pairwise (· ≤ ·)
  prompt : it.watchdog.time ≤ now + MAX_ITERATION

instance (now : Nat) (it : Iteration) : Decidable (it.Admissible now) :=
  decidable_of_iff ((now :: it.times).Pairwise (· ≤ ·) ∧ it.watchdog.time ≤ now + MAX_ITERATION)
    ⟨fun h => ⟨h.1, h.2⟩, fun h => ⟨h.ordered, h.prompt⟩⟩

/-- When the last iteration ended. -/
def loopClock (start : Nat) : Machine Nat Iteration := ⟨start, fun _ it => it.watchdog.time⟩

def LoopTimed (start : Nat) (its : List Iteration) : Prop :=
  (loopClock start).Always Iteration.Admissible its

instance (start : Nat) (its : List Iteration) : Decidable (LoopTimed start its) :=
  inferInstanceAs (Decidable ((loopClock start).Always Iteration.Admissible its))

/-- Between two iterations: a poll of either kind in the one that has just ended. -/
structure Pace.Between (p : Pace) (ended : Nat) : Prop where
  now : p.now = ended
  check : p.check = ended
  sample : ∀ q ∈ p.sample, ended ≤ q + MAX_ITERATION

section
variable {start : Nat} {h : List (Timed UsbAction)}

theorem callback_action (e : Timed Callback) :
    e.callback.action ≠ .watchdogTask ∧ e.callback.action ≠ .eventCounterTask := by
  unfold Timed.callback Callback.action
  cases e.action <;> exact ⟨by simp, by simp⟩

/-- Callbacks are paced by their order alone. -/
theorem paced_callbacks {now : Nat} (hp : Paced start h) (hnow : ((pace start).run h).now = now)
    (callbacks : List (Timed Callback))
    (hord : (now :: callbacks.map Timed.time).Pairwise (· ≤ ·)) :
    let evs := h ++ callbacks.map Timed.callback
    Paced start evs ∧ ((pace start).run evs).now ∈ now :: callbacks.map Timed.time ∧
      ((pace start).run evs).check = ((pace start).run h).check ∧
      ((pace start).run evs).sample = ((pace start).run h).sample := by
  induction callbacks using List.reverseRecOn with
  | nil => simpa [hnow] using hp
  | append_singleton cs c ih =>
    rw [List.map_append, List.map_singleton, ← List.cons_append, List.pairwise_append] at hord
    obtain ⟨hord, -, hlast⟩ := hord
    obtain ⟨hpaced, hmem, hcheck, hsample⟩ := ih hord
    obtain ⟨hnotCheck, hnotSample⟩ := callback_action c
    intro evs
    have hevs : evs = (h ++ cs.map Timed.callback) ++ [c.callback] := by simp [evs]
    have hadmits : Pace.Admits ((pace start).run (h ++ cs.map Timed.callback)) c.callback :=
      ⟨hlast _ hmem _ (by simp [Timed.callback]), fun ha => (hnotCheck ha).elim,
        fun ha => (hnotSample ha).elim⟩
    rw [hevs, Machine.run_snoc, ← hcheck, ← hsample]
    refine ⟨Machine.always_snoc.mpr ⟨hpaced, hadmits⟩, ?_, ?_, ?_⟩
    · simp [pace, Pace.next, Timed.callback]
    · simp [pace, Pace.next, hnotCheck]
    · simp [pace, Pace.next, hnotSample]

theorem paced_iteration {now : Nat} {it : Iteration} (hp : Paced start h)
    (hb : ((pace start).run h).Between now) (hit : it.Admissible now) :
    Paced start (h ++ it.steps) ∧ ((pace start).run (h ++ it.steps)).Between it.watchdog.time := by
  obtain ⟨hord, hprompt⟩ := hit
  have hmax : 2 * MAX_ITERATION ≤ MAX_SAMPLE_GAP := by decide
  have hpoll : MAX_ITERATION ≤ MAX_POLL_GAP := by decide
  rw [Iteration.times, ← List.cons_append, List.pairwise_append] at hord
  obtain ⟨hcalls, htasks, hcross⟩ := hord
  have hew : it.events.time ≤ it.watchdog.time := by simpa using htasks
  have hne : now ≤ it.events.time := hcross now (by simp) _ (by simp)
  obtain ⟨hpaced, hmem, hcheck, hsample⟩ := paced_callbacks hp hb.now it.callbacks hcalls
  have hsteps : h ++ it.steps = ((h ++ it.callbacks.map Timed.callback) ++
      [({ it.events with action := .eventCounterTask } : Timed UsbAction)]) ++
      [({ it.watchdog with action := .watchdogTask } : Timed UsbAction)] := by
    simp [Iteration.steps]
  rw [hb.check] at hcheck
  rw [hsteps, Paced, Machine.always_snoc, Machine.always_snoc, Machine.run_snoc, Machine.run_snoc,
    Machine.run_snoc]
  refine ⟨⟨⟨hpaced, ?_⟩, ?_⟩, ?_⟩
  · refine ⟨hcross _ hmem _ (by simp), nofun, fun _ q hq => ?_⟩
    rw [hsample] at hq
    have := hb.sample q hq
    show it.events.time ≤ _
    omega
  · refine ⟨hew, fun _ => ?_, nofun⟩
    show it.watchdog.time ≤ ((pace start).run _).check + _
    rw [hcheck]
    omega
  · refine ⟨rfl, rfl, fun q hq => ?_⟩
    have hq' : some it.events.time = some q := hq
    cases hq'
    omega

end

theorem paced_of_loopTimed {start : Nat} {its : List Iteration} (h : LoopTimed start its) :
    Paced start (its.flatMap Iteration.steps) := by
  have hI : (loopClock start).HistInductive (LoopTimed start) fun its now =>
      Paced start (its.flatMap Iteration.steps) ∧
        ((pace start).run (its.flatMap Iteration.steps)).Between now :=
    { ok := fun its it h => (Machine.always_snoc.mp h).1
      init := ⟨(pace start).always_nil _, rfl, rfl, fun q hq => by cases hq⟩
      step := by
        intro its it h hinv
        rw [List.flatMap_append, List.flatMap_singleton]
        exact paced_iteration hinv.1 hinv.2 (Machine.always_snoc.mp h).2 }
  exact (hI.run its h).1

end Relacon.L6
