import Relacon.L2Tasks.EventCounter

/-!
# Counting is sound

No bounce inside the debounce time is counted, in any run of the event counters:
polls at non-decreasing true times with any gaps between them, reads, resets and
changes of the debounce time anywhere.

* `count_changes`: a count changes by a poll that counts, or by a reset of it.
* `counts_rising`: a poll counts a channel only if it samples the input asserted
  and the poll before sampled it released.
* `counts_apart`: between two counted edges there is a poll that comes more than
  the debounce time in force after the first one.
-/
namespace Relacon.L2
open Relacon.Core Relacon.L1

def pollTime : CounterEv → Option Nat
  | .poll t _ => some t
  | _ => none

/-- The times of the polls of a run. -/
def pollTimes (evs : List CounterEv) : List Nat := evs.filterMap pollTime

theorem pollTimes_append (a b : List CounterEv) : pollTimes (a ++ b) = pollTimes a ++ pollTimes b :=
  List.filterMap_append

theorem pollTimes_poll (t : Nat) (inputs : UInt8) (evs : List CounterEv) :
    pollTimes (.poll t inputs :: evs) = t :: pollTimes evs := rfl

def sample (i : Fin 8) (_ : EventCounters) : CounterEv → Option Bool
  | .poll _ inputs => some (bitSet inputs i)
  | _ => none

/-- What the last poll of a run sampled on input `i`. -/
def lastSample (prior : EventCounters) (i : Fin 8) : List CounterEv → Option Bool :=
  (counterMachine prior).latest (sample i)

variable {prior : EventCounters} {i : Fin 8}

/-- A count changes by an increment, or because it is reset. -/
theorem count_changes {ec : EventCounters} {e : CounterEv}
    (h : ((counterEvStep ec e).chan i).count ≠ (ec.chan i).count) :
    increments i ec e = true ∨ ∃ index, e = .read index true ∧ index.toNat = i.val := by
  cases e with
  | poll t inputs =>
    left
    simp only [counterEvStep, eventCounterSample_chan] at h
    simp only [increments, eventCounterSample_chan, beq_iff_eq]
    exact (counterStep_count _ _ _ _).resolve_right h
  | read index reset =>
    right
    simp only [counterEvStep, eventCounterRead_chan] at h
    split at h
    · rename_i hr
      exact ⟨index, by rw [hr.1], hr.2⟩
    · exact (h rfl).elim
  | debounceTimeSet d => exact (h rfl).elim

/-- Waiting for a rising edge, the channel last saw its input released. -/
theorem waiting_released (evs : List CounterEv)
    (h : (((counterMachine prior).run evs).chan i).state = .waitingForRisingEdge) :
    lastSample prior i evs ≠ some true := by
  induction evs using List.reverseRecOn with
  | nil => simp [lastSample]
  | append_singleton hist e ih =>
    rw [Machine.run_snoc] at h
    rw [lastSample, Machine.latest_snoc]
    cases e with
    | poll t inputs =>
      have hs : ((eventCounterSample (reading t) inputs ((counterMachine prior).run hist)).chan i).state =
        .waitingForRisingEdge := h
      rw [eventCounterSample_chan] at hs
      simp only [sample, Option.some_or, ne_eq, Option.some.injEq, Bool.not_eq_true]
      by_contra ha
      rw [Bool.not_eq_false] at ha
      rw [ha] at hs
      exact counterStep_asserted _ _ _ hs
    | read index reset =>
      have hs : ((eventCounterRead index reset ((counterMachine prior).run hist)).2.chan i).state =
        .waitingForRisingEdge := h
      rw [eventCounterRead_chan] at hs
      simp only [sample, Option.none_or]
      split at hs <;> exact ih hs
    | debounceTimeSet d => exact ih h

theorem counts_rising {evs : List CounterEv} {e : CounterEv}
    (h : increments i ((counterMachine prior).run evs) e = true) :
    ∃ t inputs, e = .poll t inputs ∧ bitSet inputs i = true ∧ lastSample prior i evs ≠ some true := by
  cases e with
  | poll t inputs =>
    obtain ⟨hs, ha⟩ := (increments_poll_iff _ _ _ _).mp h
    exact ⟨t, inputs, rfl, ha, waiting_released evs hs⟩
  | read index reset => cases h
  | debounceTimeSet d => cases h

/-! ## The settling period -/

/-- Channel `i` settles since the edge at time `t`. -/
def SettlingSince (i : Fin 8) (t : Nat) (ec : EventCounters) : Prop :=
  (ec.chan i).state = .settling ∧ (ec.chan i).risingEdgeTime = reading t

/-- The event is a poll after more than the debounce time in force since `t`. -/
def Elapsed (t : Nat) (ec : EventCounters) (e : CounterEv) : Prop :=
  ∃ p inputs, e = .poll p inputs ∧ ec.debounceTimeUs.toNat < p - t

theorem settling_of_increments {ec : EventCounters} {t : Nat} {inputs : UInt8}
    (h : increments i ec (.poll t inputs) = true) :
    SettlingSince i t (counterEvStep ec (.poll t inputs)) := by
  obtain ⟨hs, ha⟩ := (increments_poll_iff _ _ _ _).mp h
  simp [SettlingSince, counterEvStep, counterStep, hs, ha]

/-- Settling ends only with a poll after the debounce time. -/
theorem settling_step {ec : EventCounters} {e : CounterEv} {t : Nat}
    (hle : ∀ p, pollTime e = some p → t ≤ p) (h : SettlingSince i t ec) :
    SettlingSince i t (counterEvStep ec e) ∨ Elapsed t ec e := by
  obtain ⟨hs, hr⟩ := h
  cases e with
  | poll p inputs =>
    by_cases he : reading p - reading t > ec.debounceTimeUs
    · exact .inr ⟨p, inputs, rfl, lt_of_elapsed (hle p rfl) he⟩
    · left
      simp [SettlingSince, counterEvStep, counterStep, hs, hr, he]
  | read index reset =>
    left
    simp only [SettlingSince, counterEvStep, eventCounterRead_chan]
    split <;> exact ⟨hs, hr⟩
  | debounceTimeSet d => exact .inl ⟨hs, hr⟩

/-- Later polls are not earlier, for a poll at `t`. -/
theorem le_of_pollTimes {pre mid post : List CounterEv} {t : Nat} {inputs : UInt8}
    (h : (pollTimes (pre ++ .poll t inputs :: (mid ++ post))).Pairwise (· ≤ ·)) :
    ∀ e ∈ mid, ∀ p, pollTime e = some p → t ≤ p := by
  intro e he p hp
  rw [pollTimes_append, pollTimes_poll, List.pairwise_append, List.pairwise_cons] at h
  refine h.2.1.1 p ?_
  rw [pollTimes, List.mem_filterMap]
  exact ⟨e, by simp [he], hp⟩

theorem counts_apart {pre mid post : List CounterEv} {e e' : CounterEv}
    (htimes : (pollTimes (pre ++ e :: (mid ++ e' :: post))).Pairwise (· ≤ ·))
    (h : increments i ((counterMachine prior).run pre) e = true)
    (h' : increments i ((counterMachine prior).run (pre ++ e :: mid)) e' = true) :
    ∃ t inputs m x m', e = .poll t inputs ∧ mid = m ++ x :: m' ∧
      Elapsed t ((counterMachine prior).run (pre ++ e :: m)) x := by
  obtain ⟨t, inputs, rfl, -, -⟩ := counts_rising h
  have hrun : ∀ l, (counterMachine prior).run (pre ++ .poll t inputs :: l) =
      (counterMachine prior).runFrom
        (counterEvStep ((counterMachine prior).run pre) (.poll t inputs)) l := by
    intro l
    rw [Machine.run_append, Machine.runFrom_cons]
    rfl
  have hmid := Machine.runFrom_unless (M := counterMachine prior) (J := SettlingSince i t)
    (Q := Elapsed t) mid (fun s x hx => settling_step (le_of_pollTimes htimes x hx)) _
    (settling_of_increments h)
  rcases hmid with ⟨hs, -⟩ | ⟨m, x, m', hm, hx⟩
  · -- still settling, so the second edge was not counted
    obtain ⟨t', inputs', rfl, -, -⟩ := counts_rising h'
    rw [hrun] at h'
    rw [((increments_poll_iff _ _ _ _).mp h').1] at hs
    cases hs
  · exact ⟨t, inputs, m, x, m', rfl, hm, by rw [hrun]; exact hx⟩

/-- **Counting is sound.** -/
theorem counting_sound (prior : EventCounters) (evs : List CounterEv) (i : Fin 8)
    (htimes : (pollTimes evs).Pairwise (· ≤ ·)) :
    (∀ pre e post, evs = pre ++ e :: post →
      ((counterEvStep ((counterMachine prior).run pre) e).chan i).count ≠
        (((counterMachine prior).run pre).chan i).count →
      increments i ((counterMachine prior).run pre) e = true ∨
        ∃ index, e = .read index true ∧ index.toNat = i.val) ∧
    (∀ pre e post, evs = pre ++ e :: post →
      increments i ((counterMachine prior).run pre) e = true →
      ∃ t inputs, e = .poll t inputs ∧ bitSet inputs i = true ∧
        lastSample prior i pre ≠ some true) ∧
    (∀ pre e mid e' post, evs = pre ++ e :: (mid ++ e' :: post) →
      increments i ((counterMachine prior).run pre) e = true →
      increments i ((counterMachine prior).run (pre ++ e :: mid)) e' = true →
      ∃ t inputs m p inputs' m', e = .poll t inputs ∧ mid = m ++ .poll p inputs' :: m' ∧
        ((counterMachine prior).run (pre ++ e :: m)).debounceTimeUs.toNat < p - t) := by
  refine ⟨fun _ _ _ _ => count_changes, fun _ _ _ _ => counts_rising, ?_⟩
  intro pre e mid e' post he h h'
  rw [he] at htimes
  obtain ⟨t, inputs, m, x, m', ht, hm, p, inputs', rfl, hlt⟩ := counts_apart htimes h h'
  exact ⟨t, inputs, m, p, inputs', m', ht, hm, hlt⟩

/-- Two edges counted at 0 and 1002 us, with the default debounce time elapsed at 1001 us. -/
theorem counting_sound_pair :
    ∃ t inputs m p inputs' m', CounterEv.poll 0 1 = .poll t inputs ∧
      [CounterEv.poll 1001 0] = m ++ .poll p inputs' :: m' ∧
      ((counterMachine .zero).run ([] ++ .poll 0 1 :: m)).debounceTimeUs.toNat < p - t :=
  (counting_sound .zero [.poll 0 1, .poll 1001 0, .poll 1002 1] 0 (by decide)).2.2 [] _
    [.poll 1001 0] _ [] rfl (by decide +kernel) (by decide +kernel)

end Relacon.L2
