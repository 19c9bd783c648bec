import Relacon.L6System.DeviceRefinement

/-!
# How late the polls may be

The timer wraps after 2^32 us, and the firmware compares differences of readings, so
it implements the device only if its polls come in time. Here the bounds of `Paced`
and of `LoopTimed` are parameters.

* `pace_exact`: in all interleavings the firmware shows what the device shows, if and
  only if the watchdog polls are at most `MAX_POLL_GAP` apart and the event polls at
  most `MAX_SAMPLE_GAP`.
* `loop_exact`: in all runs of the main loop it does, if and only if no iteration
  takes longer than `MAX_ITERATION`.

One us more is enough to fail: a poll that comes a full turn of the timer after the
edge (or the command) sees no time elapsed.
-/
namespace Relacon.L6
open Relacon.Core Relacon.L1 Relacon.L2 Relacon.L3 Relacon.L4 Relacon.L5

/-! ## Paces -/

/-- `Pace.Admits`, for any bounds on the two gaps. -/
structure Pace.AdmitsWithin (check sample : Nat) (p : Pace) (e : Timed UsbAction) : Prop where
  forward : p.now ≤ e.time
  check : e.action = .watchdogTask → e.time ≤ p.check + check
  sample : e.action = .eventCounterTask → ∀ q ∈ p.sample, e.time ≤ q + sample

instance (check sample : Nat) (p : Pace) (e : Timed UsbAction) :
    Decidable (p.AdmitsWithin check sample e) :=
  decidable_of_iff (p.now ≤ e.time ∧ (e.action = .watchdogTask → e.time ≤ p.check + check) ∧
      (e.action = .eventCounterTask → ∀ q ∈ p.sample, e.time ≤ q + sample))
    ⟨fun h => ⟨h.1, h.2.1, h.2.2⟩, fun h => ⟨h.forward, h.check, h.sample⟩⟩

theorem Pace.AdmitsWithin.mono {c c' s s' : Nat} {p : Pace} {e : Timed UsbAction}
    (h : p.AdmitsWithin c s e) (hc : c ≤ c') (hs : s ≤ s') : p.AdmitsWithin c' s' e where
  forward := h.forward
  check ha := (h.check ha).trans (Nat.add_le_add_left hc _)
  sample ha q hq := (h.sample ha q hq).trans (Nat.add_le_add_left hs _)

def PacedWithin (check sample start : Nat) (evs : List (Timed UsbAction)) : Prop :=
  (pace start).Always (Pace.AdmitsWithin check sample) evs

instance (check sample start : Nat) (evs : List (Timed UsbAction)) :
    Decidable (PacedWithin check sample start evs) :=
  inferInstanceAs (Decidable ((pace start).Always (Pace.AdmitsWithin check sample) evs))

theorem PacedWithin.mono {c c' s s' start : Nat} {evs : List (Timed UsbAction)}
    (h : PacedWithin c s start evs) (hc : c ≤ c') (hs : s ≤ s') : PacedWithin c' s' start evs :=
  fun pre e post he => (h pre e post he).mono hc hs

theorem paced_of_within {c s start : Nat} {evs : List (Timed UsbAction)}
    (h : PacedWithin c s start evs) (hc : c ≤ MAX_POLL_GAP) (hs : s ≤ MAX_SAMPLE_GAP) :
    Paced start evs := by
  intro pre e post he
  obtain ⟨hnow, hcheck, hsample⟩ := (h.mono hc hs) pre e post he
  exact ⟨hnow, hcheck, hsample⟩

/-- The firmware shows what the device shows. -/
def Faithful (evs : List (Timed UsbAction)) : Prop :=
  timedUsb.trace shows evs = device.trace Device.shows (evs.map deviceEv)

theorem Faithful.queued {evs : List (Timed UsbAction)} (h : Faithful evs) :
    (timedUsb.trace shows evs).map Shown.queued =
      (device.trace Device.shows (evs.map deviceEv)).map Shown.queued := congrArg _ h

theorem Faithful.relays {evs : List (Timed UsbAction)} (h : Faithful evs) (n : Fin 8) :
    (timedUsb.trace shows evs).map (Shown.relays · n) =
      (device.trace Device.shows (evs.map deviceEv)).map (Shown.relays · n) := congrArg _ h

def commandAction (cs : List Char) : UsbAction :=
  .setReport REPORT_ID_ADU_CMD_RSP .output (ascii cs ++ [0]) 7 (.replicate _ 0)

/-- With `DB0` an edge settles for 10 ms. A sample a full turn of the timer after it sees it
still settling, and the next edge is not counted. -/
def lateSample : List (Timed UsbAction) :=
  [⟨0, 0, 0, commandAction ['D', 'B', '0']⟩, ⟨0, 0, 1, .eventCounterTask⟩,
    ⟨10000, 0, 0, .eventCounterTask⟩, ⟨2 ^ 32, 0, 0, .eventCounterTask⟩,
    ⟨2 ^ 32 + 1, 0, 1, .eventCounterTask⟩, ⟨2 ^ 32 + 2, 0, 0, commandAction ['R', 'E', '0']⟩]

theorem lateSample_unfaithful : ¬ Faithful lateSample := by
  intro h
  exact absurd h.queued (by decide +kernel)

/-- With `WD3` the watchdog waits for 60 s. A check a full turn of the timer after the command
sees no time elapsed. -/
def lateCheck : List (Timed UsbAction) :=
  [⟨0, 0, 0, commandAction ['S', 'K', '0']⟩, ⟨0, 0, 0, commandAction ['W', 'D', '3']⟩,
    ⟨60000000, 0, 0, .watchdogTask⟩, ⟨2 ^ 32, 0, 0, .watchdogTask⟩]

theorem lateCheck_unfaithful : ¬ Faithful lateCheck := by
  intro h
  exact absurd (h.relays 0) (by decide +kernel)

/-- **The bounds on the gaps are exact.** -/
theorem pace_exact (check sample : Nat) :
    (∀ start evs, PacedWithin check sample start evs → Faithful evs) ↔
      check ≤ MAX_POLL_GAP ∧ sample ≤ MAX_SAMPLE_GAP := by
  refine ⟨fun h => ⟨?_, ?_⟩, fun h start evs hp => ?_⟩
  · by_contra hlate
    have hpaced : PacedWithin (MAX_POLL_GAP + 1) 0 0 lateCheck := by decide
    exact lateCheck_unfaithful (h 0 _ (hpaced.mono (by omega) (Nat.zero_le _)))
  · by_contra hlate
    have hpaced : PacedWithin 0 (MAX_SAMPLE_GAP + 1) 0 lateSample := by decide
    exact lateSample_unfaithful (h 0 _ (hpaced.mono (Nat.zero_le _) (by omega)))
  · exact ((refines start).run evs (paced_of_within hp h.1 h.2)).2

/-! ## The main loop -/

/-- `Iteration.Admissible`, for any bound on the length of an iteration. -/
structure Iteration.AdmissibleWithin (m : Nat) (now : Nat) (it : Iteration) : Prop where
  ordered : (now :: it.times).Pairwise (· ≤ ·)
  prompt : it.watchdog.time ≤ now + m

instance (m now : Nat) (it : Iteration) : Decidable (it.AdmissibleWithin m now) :=
  decidable_of_iff ((now :: it.times).Pairwise (· ≤ ·) ∧ it.watchdog.time ≤ now + m)
    ⟨fun h => ⟨h.1, h.2⟩, fun h => ⟨h.ordered, h.prompt⟩⟩

def LoopWithin (m start : Nat) (its : List Iteration) : Prop :=
  (loopClock start).Always (Iteration.AdmissibleWithin m) its

instance (m start : Nat) (its : List Iteration) : Decidable (LoopWithin m start its) :=
  inferInstanceAs (Decidable ((loopClock start).Always (Iteration.AdmissibleWithin m) its))

/-- `lateSample` in the main loop: two iterations of `m` between the samples. -/
def lateLoop (m : Nat) : List Iteration :=
  [⟨[⟨0, 0, 0, .setReport 1 .output (ascii ['D', 'B', '0'] ++ [0]) 7 (.replicate _ 0)⟩],
      ⟨0, 0, 1, ()⟩, ⟨10000, 0, 0, ()⟩⟩,
    ⟨[], ⟨10000, 0, 0, ()⟩, ⟨10000 + m, 0, 0, ()⟩⟩,
    ⟨[], ⟨10000 + 2 * m, 0, 0, ()⟩, ⟨10000 + 2 * m, 0, 0, ()⟩⟩,
    ⟨[], ⟨10001 + 2 * m, 0, 1, ()⟩, ⟨10001 + 2 * m, 0, 0, ()⟩⟩,
    ⟨[⟨10002 + 2 * m, 0, 0, .setReport 1 .output (ascii ['R', 'E', '0'] ++ [0]) 7 (.replicate _ 0)⟩],
      ⟨10002 + 2 * m, 0, 0, ()⟩, ⟨10002 + 2 * m, 0, 0, ()⟩⟩]

theorem lateLoop_unfaithful : ¬ Faithful ((lateLoop (MAX_ITERATION + 1)).flatMap Iteration.steps) := by
  intro h
  exact absurd h.queued (by decide +kernel)

/-- **The bound on the iterations is exact.** -/
theorem loop_exact (m : Nat) :
    (∀ start its, LoopWithin m start its → Faithful (its.flatMap Iteration.steps)) ↔
      m ≤ MAX_ITERATION := by
  refine ⟨fun h => ?_, fun hm start its hl => ?_⟩
  · by_contra hlate
    have hloop : LoopWithin (MAX_ITERATION + 1) 0 (lateLoop (MAX_ITERATION + 1)) := by decide
    refine lateLoop_unfaithful (h 0 _ fun pre it post he => ?_)
    obtain ⟨hord, hprompt⟩ := hloop pre it post he
    exact ⟨hord, by omega⟩
  · have htimed : LoopTimed start its := fun pre it post he => by
      obtain ⟨hord, hprompt⟩ := hl pre it post he
      exact ⟨hord, by omega⟩
    exact ((refines start).run _ (paced_of_loopTimed htimed)).2

end Relacon.L6
