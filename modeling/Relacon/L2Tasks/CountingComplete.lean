import Mathlib.Data.List.Chain
import Relacon.L2Tasks.EventCounter

/-!
# Which edges are counted

Runs of polls with one debounce time `D`, with less than a full turn of the timer
between a counted edge and the poll that ends its settling period (`Timely`).
`counts_iff`: a rising edge is counted exactly if the poll before it came more
than `D` after the last counted edge (`Settled`). The edge itself may be late
enough and still be lost: the first poll after the debounce time only ends the
settling period, and a channel that samples its input asserted there goes on to
wait for the falling edge.

`Phase` is the invariant, what each state of the automaton says about the polls
so far.
-/
namespace Relacon.L2
open Relacon.Core Relacon.L1

structure Poll where
  time : Nat
  inputs : UInt8
  deriving DecidableEq, Repr

/-- Polls only, with the debounce time `D` set after `EventCounterInit`. -/
def polling (prior : EventCounters) (D : UInt32) : Machine EventCounters Poll where
  init := eventCounterDebounceTimeSet D (eventCounterInit prior)
  step ec p := eventCounterSample (reading p.time) p.inputs ec

/-- Times do not decrease, and consecutive polls are less than `2 ^ 32 - D` apart. -/
def Timely (D : UInt32) (ps : List Poll) : Prop :=
  ps.IsChain fun p q => p.time ≤ q.time ∧ q.time - p.time < 2 ^ 32 - D.toNat

/-- The poll counts an edge on channel `i`. -/
def Counts (i : Fin 8) (ec : EventCounters) (p : Poll) : Prop :=
  increments i ec (.poll p.time p.inputs) = true

instance (i : Fin 8) (ec : EventCounters) (p : Poll) : Decidable (Counts i ec p) :=
  inferInstanceAs (Decidable (_ = _))

/-- The time of the last counted edge. -/
def lastCounted (prior : EventCounters) (D : UInt32) (i : Fin 8) : List Poll → Option Nat :=
  (polling prior D).latest fun ec p => if Counts i ec p then some p.time else none

/-- `p` samples the input asserted, and the poll before it, if any, released. -/
def RisingEdge (i : Fin 8) (prev : Option Poll) (p : Poll) : Prop :=
  bitSet p.inputs i = true ∧ ∀ q ∈ prev, bitSet q.inputs i = false

/-- The edge comes more than `D` after the last counted one, if any. -/
def Due (D : UInt32) (last : Option Nat) (p : Poll) : Prop := ∀ t ∈ last, D.toNat < p.time - t

/-- So did the poll before it. -/
def Settled (D : UInt32) (last : Option Nat) (prev : Option Poll) : Prop :=
  ∀ t ∈ last, ∃ q ∈ prev, D.toNat < q.time - t

/-- Every edge that is due is counted. -/
def Complete (prior : EventCounters) (D : UInt32) (i : Fin 8) (ps : List Poll) : Prop :=
  ∀ pre p post, ps = pre ++ p :: post → RisingEdge i pre.getLast? p →
    Due D (lastCounted prior D i pre) p → Counts i ((polling prior D).run pre) p

/-- No edge that is due is seen by the poll that ends the settling period. -/
def PromptlySettled (prior : EventCounters) (D : UInt32) (i : Fin 8) (ps : List Poll) : Prop :=
  ∀ pre p post, ps = pre ++ p :: post → RisingEdge i pre.getLast? p →
    Due D (lastCounted prior D i pre) p → Settled D (lastCounted prior D i pre) pre.getLast?

/-! ## The invariant -/

/-- What the state of a channel says about the last counted edge and the last poll. -/
def Phase (D : UInt32) (i : Fin 8) (last : Option Nat) (prev : Option Poll) (c : EventCounter) :
    Prop :=
  match c.state with
  | .waitingForRisingEdge => (∀ q ∈ prev, bitSet q.inputs i = false) ∧ Settled D last prev
  | .settling => ∃ t q, last = some t ∧ prev = some q ∧ c.risingEdgeTime = reading t ∧
      t ≤ q.time ∧ q.time ≤ t + D.toNat
  | .waitingForFallingEdge => (∃ q, prev = some q ∧ bitSet q.inputs i = true) ∧ Settled D last prev

/-- Polling with a fixed debounce time is a run of the event counter module. -/
theorem polling_run (prior : EventCounters) (D : UInt32) (ps : List Poll) :
    (polling prior D).run ps = (counterMachine prior).run
      (.debounceTimeSet D :: ps.map fun p => .poll p.time p.inputs) := by
  induction ps using List.reverseRecOn with
  | nil => rfl
  | append_singleton h p ih =>
    rw [Machine.run_snoc, ih, List.map_append, List.map_singleton, ← List.cons_append,
      Machine.run_snoc]
    rfl

theorem polling_debounce (prior : EventCounters) (D : UInt32) (ps : List Poll) :
    ((polling prior D).run ps).debounceTimeUs = D := by
  have hI : (polling prior D).Inductive fun ec => ec.debounceTimeUs = D := ⟨rfl, fun _ _ h => h⟩
  exact hI.run ps

/-- The next poll of a channel, with the debounce time `D`. -/
theorem polling_step_chan (prior : EventCounters) (D : UInt32) (ps : List Poll) (p : Poll) (i : Fin 8) :
    ((polling prior D).step ((polling prior D).run ps) p).chan i =
      counterStep (reading p.time) D (bitSet p.inputs i) (((polling prior D).run ps).chan i) := by
  have hstep : ((polling prior D).step ((polling prior D).run ps) p).chan i =
      counterStep (reading p.time) ((polling prior D).run ps).debounceTimeUs (bitSet p.inputs i)
        (((polling prior D).run ps).chan i) := eventCounterSample_chan _ _ _ i
  rwa [polling_debounce] at hstep

section
variable {D : UInt32} {i : Fin 8} {last : Option Nat} {prev : Option Poll} {p : Poll}
  {c : EventCounter}

/-- Once the settling period is over, later polls only come later. -/
theorem Settled.next (hlink : ∀ q ∈ prev, q.time ≤ p.time) (h : Settled D last prev) :
    Settled D last (some p) := by
  intro t ht
  obtain ⟨q, hq, hlt⟩ := h t ht
  have := hlink q hq
  exact ⟨p, rfl, by omega⟩

theorem phase_step
    (hlink : ∀ q ∈ prev, q.time ≤ p.time ∧ p.time - q.time < 2 ^ 32 - D.toNat)
    (h : Phase D i last prev c) :
    Phase D i
      ((if c.state = .waitingForRisingEdge ∧ bitSet p.inputs i = true then some p.time else none).or last)
      (some p) (counterStep (reading p.time) D (bitSet p.inputs i) c) := by
  have hle : ∀ q ∈ prev, q.time ≤ p.time := fun q hq => (hlink q hq).1
  have hD := D.toNat_lt
  cases hs : c.state with
  | waitingForRisingEdge =>
    simp only [Phase, hs] at h
    cases ha : bitSet p.inputs i with
    | true => simp [Phase, counterStep, hs]
    | false =>
      have := h.2.next hle
      simpa [Phase, counterStep, hs, ha] using this
  | settling =>
    simp only [Phase, hs] at h
    obtain ⟨t, q, rfl, rfl, hr, hqt, hq⟩ := h
    obtain ⟨hqp, hgap⟩ := hlink q rfl
    have hexact := elapsed_iff (p := D) (show t ≤ p.time by omega) (by omega)
    rw [← hr] at hexact
    by_cases he : D.toNat < p.time - t
    · have hdone : Settled D (some t) (some p) := by
        rintro t' ⟨⟩
        exact ⟨p, rfl, he⟩
      cases ha : bitSet p.inputs i with
      | true => simpa [Phase, counterStep, hs, hexact.mpr he, ha] using hdone
      | false => simpa [Phase, counterStep, hs, hexact.mpr he, ha] using hdone
    · have hno := mt hexact.mp he
      simp only [counterStep, hs, hno, if_false, Phase, reduceCtorEq, false_and, Option.none_or]
      exact ⟨t, p, rfl, rfl, hr, by omega, by omega⟩
  | waitingForFallingEdge =>
    simp only [Phase, hs] at h
    have := h.2.next hle
    cases ha : bitSet p.inputs i with
    | true => simpa [Phase, counterStep, hs, ha] using this
    | false => simpa [Phase, counterStep, hs, ha] using this

end

/-! ## Runs -/

section
variable {prior : EventCounters} {D : UInt32} {i : Fin 8} {ps : List Poll}

theorem timely_snoc {p : Poll} (h : Timely D (ps ++ [p])) : Timely D ps ∧
    ∀ q ∈ ps.getLast?, q.time ≤ p.time ∧ p.time - q.time < 2 ^ 32 - D.toNat := by
  obtain ⟨hps, -, hlink⟩ := List.isChain_append.mp h
  exact ⟨hps, fun q hq => hlink q hq p rfl⟩

theorem phase_run (ht : Timely D ps) :
    Phase D i (lastCounted prior D i ps) ps.getLast? (((polling prior D).run ps).chan i) := by
  have hI : (polling prior D).HistInductive (Timely D)
      fun ps ec => Phase D i (lastCounted prior D i ps) ps.getLast? (ec.chan i) :=
    { ok := fun h p hp => (timely_snoc hp).1
      init := by simp [polling, Phase, lastCounted, Settled]
      step := by
        intro h p hp hphase
        have hstep := phase_step (timely_snoc hp).2 hphase
        simp only [lastCounted, Machine.latest_snoc, Counts, increments_poll_iff,
          List.getLast?_append, List.getLast?_singleton, Option.some_or] at hstep ⊢
        rw [polling_step_chan]
        exact hstep }
  exact hI.run ps ht

/-- A rising edge is counted exactly if the settling period was over at the poll before it. -/
theorem counts_iff (ht : Timely D ps) {p : Poll} (hp : RisingEdge i ps.getLast? p) :
    Counts i ((polling prior D).run ps) p ↔ Settled D (lastCounted prior D i ps) ps.getLast? := by
  have h : Phase D i (lastCounted prior D i ps) ps.getLast? (((polling prior D).run ps).chan i) :=
    phase_run ht
  rw [Counts, increments_poll_iff]
  cases hs : (((polling prior D).run ps).chan i).state with
  | waitingForRisingEdge =>
    simp only [Phase, hs] at h
    simp [hp.1, h.2]
  | settling =>
    simp only [Phase, hs] at h
    obtain ⟨t, q, hlast, hprev, -, -, hq⟩ := h
    simp only [reduceCtorEq, false_and, false_iff]
    intro hset
    obtain ⟨q', hq', hlt⟩ := hset t hlast
    rw [hprev] at hq'
    cases hq'
    omega
  | waitingForFallingEdge =>
    simp only [Phase, hs] at h
    obtain ⟨q, hprev, hhigh⟩ := h.1
    rw [hp.2 q hprev] at hhigh
    cases hhigh

end

/-- **Counting is complete** in the runs without late settling, and in no others. -/
theorem complete_iff (prior : EventCounters) (D : UInt32) (i : Fin 8) (ps : List Poll)
    (ht : Timely D ps) : Complete prior D i ps ↔ PromptlySettled prior D i ps := by
  have hpre : ∀ pre p post, ps = pre ++ p :: post → Timely D pre := by
    rintro pre p post rfl
    exact (List.isChain_append.mp ht).1
  refine ⟨fun h => ?_, fun h => ?_⟩
  · intro pre p post he hp hd
    exact (counts_iff (hpre pre p post he) hp).mp (h pre p post he hp hd)
  · intro pre p post he hp hd
    exact (counts_iff (hpre pre p post he) hp).mpr (h pre p post he hp hd)

theorem complete_iff_pulses :
    Complete .zero 100 0 [⟨0, 1⟩, ⟨101, 0⟩, ⟨102, 1⟩] ↔
      PromptlySettled .zero 100 0 [⟨0, 1⟩, ⟨101, 0⟩, ⟨102, 1⟩] :=
  complete_iff .zero 100 0 _ (by simp [Timely])

/-- Pulses at 0 and 200 us, debounced with 100 us and released in between: the
second one ends the settling period of the first, and is lost. -/
theorem complete_fails : ¬ ∀ (prior : EventCounters) (D : UInt32) (i : Fin 8) (ps : List Poll),
    D ∈ [(100 : UInt32), 1000, 10000] → Timely D ps → Complete prior D i ps := by
  intro h
  have hlast : lastCounted .zero 100 0 [⟨0, 1⟩, ⟨50, 0⟩] = some 0 := by decide +kernel
  have hcounts := h .zero 100 0 [⟨0, 1⟩, ⟨50, 0⟩, ⟨200, 1⟩] (by decide) (by simp [Timely])
    [⟨0, 1⟩, ⟨50, 0⟩] ⟨200, 1⟩ [] rfl ⟨by decide, by decide⟩
    (by rw [hlast]; rintro t ⟨⟩; decide)
  exact absurd hcounts (by decide +kernel)

end Relacon.L2
