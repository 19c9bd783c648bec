import Relacon.L2Tasks.CountingComplete
import Relacon.L2Tasks.ExactTime

/-!
# A longer debounce time never counts more

The same polls, debounced with `D₁` and with `D₂ ≥ D₁`. The two runs count
different edges and leave settling at different polls, so there is no lock-step
simulation; `Ahead` is what survives every poll (`ahead_step`): either the run
with `D₁` has counted more, or both have counted the same, the last edge of the
`D₁` run is no later, and once the `D₂` run has settled both wait for the same
edge.

`raising_debounce`: after every poll the `D₁` run has counted at least as much, so
its `k`-th increment is no later.
-/
namespace Relacon.L2
open Relacon.Core Relacon.L1

/-- The poll counts, in the exact automaton. -/
def Channel.count1 (a : Channel) (x : Bool) : Nat :=
  if a.state = .waitingForRisingEdge ∧ x = true then 1 else 0

/-- Channel `a` is no later than `b`, after the same number of increments. -/
def Follows (a b : Channel) : Prop :=
  if b.state = .settling then a.state = .settling → a.risingEdgeTime ≤ b.risingEdgeTime
  else a.state = b.state

/-- Channel `a` with `m` increments is ahead of channel `b` with `n`. -/
def Ahead (a b : Channel) (m n : Nat) : Prop := n < m ∨ (m = n ∧ Follows a b)

/-! ## One poll -/

section
variable {a b : Channel} {t m n : Nat} {x : Bool}

theorem poll_counts (h : a.count1 x = 1) :
    a.poll t x = { a with state := .settling, risingEdgeTime := t, count := a.count + 1 } := by
  unfold Channel.count1 at h
  split at h
  · rename_i hc
    simp [Channel.poll, hc.1, hc.2]
  · cases h

theorem count1_cases (a : Channel) (x : Bool) : a.count1 x = 1 ∨ a.count1 x = 0 := by
  unfold Channel.count1
  split
  · exact .inl rfl
  · exact .inr rfl

/-- A poll that does not count leaves settling, or starts none. -/
theorem poll_settling (h : a.count1 x = 0) (hs : (a.poll t x).state = .settling) :
    a.poll t x = a := by
  cases ha : a.state with
  | waitingForRisingEdge =>
    cases x with
    | true => simp [Channel.count1, ha] at h
    | false => simp [Channel.poll, ha]
  | settling =>
    by_cases he : a.debounceTime < t - a.risingEdgeTime
    · exact absurd hs ((poll_settling_iff ha t x).mpr he)
    · simp [Channel.poll, ha, he]
  | waitingForFallingEdge => cases x <;> simp [Channel.poll, ha] at hs ⊢

theorem poll_rising_le (ha : a.state = .settling → a.risingEdgeTime ≤ t)
    (hs : (a.poll t x).state = .settling) : (a.poll t x).risingEdgeTime ≤ t := by
  rcases count1_cases a x with hc | hc
  · rw [poll_counts hc]
  · have hsame := poll_settling hc hs
    rw [hsame] at hs ⊢
    exact ha hs

/-- A channel that is done settling, and does not count, waits for the edge that
undoes the sample. -/
theorem poll_settled (h : a.count1 x = 0)
    (hs : a.state = .settling → a.debounceTime < t - a.risingEdgeTime) :
    (a.poll t x).state = if x then .waitingForFallingEdge else .waitingForRisingEdge := by
  cases ha : a.state with
  | waitingForRisingEdge =>
    cases x with
    | true => simp [Channel.count1, ha] at h
    | false => simp [Channel.poll, ha]
  | settling => simp [Channel.poll, ha, hs ha]
  | waitingForFallingEdge => cases x <;> simp [Channel.poll, ha]

theorem ahead_step (hD : a.debounceTime ≤ b.debounceTime)
    (ha : a.state = .settling → a.risingEdgeTime ≤ t) (h : Ahead a b m n) :
    Ahead (a.poll t x) (b.poll t x) (m + a.count1 x) (n + b.count1 x) := by
  have hnow : b.count1 x = 1 → Follows (a.poll t x) (b.poll t x) := by
    intro hb
    rw [poll_counts hb, Follows, if_pos rfl]
    exact poll_rising_le ha
  rcases h with hlt | ⟨rfl, hf⟩
  · -- the run with `b` catches up at most
    rcases count1_cases b x with hb | hb
    · by_cases hmore : n + 1 < m + a.count1 x
      · exact .inl (by omega)
      · exact .inr ⟨by omega, hnow hb⟩
    · exact .inl (by omega)
  · rcases count1_cases a x with hca | hca
    · rcases count1_cases b x with hb | hb
      · exact .inr ⟨by omega, hnow hb⟩
      · exact .inl (by omega)
    · by_cases hs : b.state = .settling
      · have hb : b.count1 x = 0 := by simp [Channel.count1, hs]
        rw [Follows, if_pos hs] at hf
        refine .inr ⟨by omega, ?_⟩
        by_cases he : b.debounceTime < t - b.risingEdgeTime
        · -- `b` settles with this sample, so `a` has settled too
          have hsa : (a.poll t x).state = if x then .waitingForFallingEdge else .waitingForRisingEdge := by
            refine poll_settled hca fun h => ?_
            have := hf h
            omega
          have hsb := poll_settled (t := t) hb fun _ => he
          rw [Follows, if_neg (by rw [hsb]; cases x <;> simp), hsa, hsb]
        · have hsame : b.poll t x = b := by simp [Channel.poll, hs, he]
          rw [hsame, Follows, if_pos hs]
          intro h
          have hkept := poll_settling hca h
          rw [hkept] at h ⊢
          exact hf h
      · rw [Follows, if_neg hs] at hf
        have hb : b.count1 x = 0 := by
          rw [Channel.count1, ← hf]
          exact hca
        have hsa := poll_settled (t := t) hca fun h => (hs (hf.symm.trans h)).elim
        have hsb := poll_settled (t := t) hb fun h => (hs h).elim
        refine .inr ⟨by omega, ?_⟩
        rw [Follows, if_neg (by rw [hsb]; cases x <;> simp), hsa, hsb]

end

/-! ## Runs -/

/-- One exact channel, polled with a fixed debounce time. -/
def exactPolling (D : UInt32) (i : Fin 8) : Machine Channel Poll :=
  ⟨.init D.toNat, fun a p => a.poll p.time (bitSet p.inputs i)⟩

/-- The increments made on channel `i` in a run. -/
def increased (prior : EventCounters) (D : UInt32) (i : Fin 8) : List Poll → Nat :=
  (polling prior D).total fun ec p => (increments i ec (.poll p.time p.inputs)).toNat

/-- Poll number `m` of the run makes the increment with `k` before it. -/
def IncrementAt (prior : EventCounters) (D : UInt32) (i : Fin 8) (ps : List Poll) (k m : Nat) : Prop :=
  m < ps.length ∧ increased prior D i (ps.take m) = k ∧ increased prior D i (ps.take (m + 1)) = k + 1

section
variable {prior : EventCounters} {D : UInt32} {i : Fin 8} {ps : List Poll}

theorem exactPolling_debounce (D : UInt32) (i : Fin 8) (ps : List Poll) :
    ((exactPolling D i).run ps).debounceTime = D.toNat := by
  have hI : (exactPolling D i).Inductive fun a => a.debounceTime = D.toNat :=
    ⟨rfl, fun a p h => (poll_debounceTime p.time _ a).trans h⟩
  exact hI.run ps

theorem polling_tracks (prior : EventCounters) (i : Fin 8) (ht : Timely D ps) :
    Tracks D.toNat (ps.getLast?.map Poll.time) (((polling prior D).run ps).chan i)
      ((exactPolling D i).run ps) := by
  have hI : (polling prior D).HistInductive (Timely D) fun ps ec =>
      Tracks D.toNat (ps.getLast?.map Poll.time) (ec.chan i) ((exactPolling D i).run ps) :=
    { ok := fun h p hp => (timely_snoc hp).1
      init := by
        have hchan := eventCounterInit_chan prior i
        exact ⟨congrArg EventCounter.state hchan, congrArg EventCounter.count hchan,
          fun hs => by cases hs⟩
      step := by
        intro h p hp htracks
        have hlink : ∀ q ∈ h.getLast?.map Poll.time, q ≤ p.time ∧ p.time - q < 2 ^ 32 - D.toNat := by
          intro q hq
          obtain ⟨r, hr, rfl⟩ := Option.mem_map.mp hq
          exact (timely_snoc hp).2 r hr
        have hstep := tracks_poll (x := bitSet p.inputs i) hlink (exactPolling_debounce D i h)
          (Nat.le_refl _) htracks
        rw [Machine.run_snoc, List.getLast?_append, List.getLast?_singleton, Option.some_or,
          Option.map_some, polling_step_chan]
        exact hstep }
  exact hI.run ps ht

/-- The exact automaton counts where the channel counts. -/
theorem increments_exact (ht : Timely D ps) (p : Poll) :
    (increments i ((polling prior D).run ps) (.poll p.time p.inputs)).toNat =
      ((exactPolling D i).run ps).count1 (bitSet p.inputs i) := by
  have hstate := (polling_tracks prior i ht).state
  have hiff := increments_poll_iff i ((polling prior D).run ps) p.time p.inputs
  rw [hstate] at hiff
  rw [Channel.count1]
  split
  · rename_i hc
    rw [hiff.mpr hc]
    rfl
  · rename_i hc
    rw [Bool.eq_false_iff.mpr (mt hiff.mp hc)]
    rfl

/-- No counted edge lies after the last poll. -/
theorem rising_le_poll {p : Poll} (ht : Timely D (ps ++ [p])) :
    ((exactPolling D i).run ps).state = .settling →
      ((exactPolling D i).run ps).risingEdgeTime ≤ p.time := by
  intro hs
  obtain ⟨hps, hlink⟩ := timely_snoc ht
  obtain ⟨-, q, hq, hle, -⟩ := (polling_tracks .zero i hps).recent hs
  obtain ⟨r, hr, rfl⟩ := Option.mem_map.mp hq
  exact hle.trans (hlink r hr).1

end

section
variable {prior prior' : EventCounters} {D₁ D₂ : UInt32} {i : Fin 8} {ps : List Poll}

theorem Timely.mono (h : D₁ ≤ D₂) (ht : Timely D₂ ps) : Timely D₁ ps := by
  have hle := UInt32.le_iff_toNat_le.mp h
  refine ht.imp fun p q hpq => ?_
  omega

theorem ahead_run (prior prior' : EventCounters) (i : Fin 8) (h : D₁ ≤ D₂) (ht : Timely D₂ ps) :
    Ahead ((exactPolling D₁ i).run ps) ((exactPolling D₂ i).run ps) (increased prior D₁ i ps)
      (increased prior' D₂ i ps) := by
  induction ps using List.reverseRecOn with
  | nil => exact .inr ⟨rfl, rfl⟩
  | append_singleton ps p ih =>
    obtain ⟨hps, -⟩ := timely_snoc ht
    have hD : ((exactPolling D₁ i).run ps).debounceTime ≤ ((exactPolling D₂ i).run ps).debounceTime := by
      rw [exactPolling_debounce, exactPolling_debounce]
      exact UInt32.le_iff_toNat_le.mp h
    have hstep := ahead_step (x := bitSet p.inputs i) hD (rising_le_poll (ht.mono h)) (ih hps)
    rw [increased, increased, Machine.total_snoc, Machine.total_snoc, ← increased, ← increased,
      increments_exact (hps.mono h), increments_exact hps, Machine.run_snoc, Machine.run_snoc]
    exact hstep

theorem increased_le (h : D₁ ≤ D₂) (ht : Timely D₂ ps) :
    increased prior' D₂ i ps ≤ increased prior D₁ i ps := by
  rcases ahead_run prior prior' i h ht with hlt | ⟨heq, -⟩
  · exact hlt.le
  · exact heq.ge

theorem Timely.take (m : Nat) (ht : Timely D₂ ps) : Timely D₂ (ps.take m) := by
  have hsplit := List.take_append_drop m ps
  rw [← hsplit] at ht
  exact (List.isChain_append.mp ht).1

end

/-- One poll makes at most one increment. -/
theorem increased_take_succ (prior : EventCounters) (D : UInt32) (i : Fin 8) (ps : List Poll) (m : Nat) :
    increased prior D i (ps.take (m + 1)) ≤ increased prior D i (ps.take m) + 1 := by
  by_cases hm : m < ps.length
  · rw [List.take_succ_eq_append_getElem hm, increased, Machine.total_snoc]
    have := Bool.toNat_le (increments i ((polling prior D).run (ps.take m))
      (.poll ps[m].time ps[m].inputs))
    omega
  · rw [List.take_of_length_le (by omega), List.take_of_length_le (by omega)]
    omega

/-- A count that goes up one at a time takes every value below the one it reaches. -/
theorem exists_increment {f : Nat → Nat} (h0 : f 0 = 0) (hs : ∀ m, f (m + 1) ≤ f m + 1) {k n : Nat}
    (h : k < f n) : ∃ m < n, f m = k ∧ f (m + 1) = k + 1 := by
  induction n with
  | zero => omega
  | succ n ih =>
    by_cases hk : k < f n
    · obtain ⟨m, hm, hfm⟩ := ih hk
      exact ⟨m, by omega, hfm⟩
    · have := hs n
      exact ⟨n, by omega, by omega, by omega⟩

/-- **Raising the debounce time never counts more.** After every poll the run with
`D₁` has made at least as many increments, and its `k`-th one comes no later. -/
theorem raising_debounce (prior prior' : EventCounters) (D₁ D₂ : UInt32) (i : Fin 8) (ps : List Poll)
    (h : D₁ ≤ D₂) (ht : Timely D₂ ps) :
    (∀ m, increased prior' D₂ i (ps.take m) ≤ increased prior D₁ i (ps.take m)) ∧
    (∀ k m₂, IncrementAt prior' D₂ i ps k m₂ → ∃ m₁ ≤ m₂, IncrementAt prior D₁ i ps k m₁) := by
  have hle : ∀ m, increased prior' D₂ i (ps.take m) ≤ increased prior D₁ i (ps.take m) :=
    fun m => increased_le h (ht.take m)
  refine ⟨hle, fun k m₂ hinc => ?_⟩
  obtain ⟨hlen, -, hafter⟩ := hinc
  have hreach : k < increased prior D₁ i (ps.take (m₂ + 1)) := by
    have := hle (m₂ + 1)
    omega
  obtain ⟨m₁, hm, hk, hk'⟩ := exists_increment (f := fun m => increased prior D₁ i (ps.take m)) rfl
    (increased_take_succ prior D₁ i ps) hreach
  exact ⟨m₁, by omega, by omega, hk, hk'⟩

/-- A bounce at 150 us counts with a debounce time of 100 us, not with 1000 us. -/
theorem raising_debounce_bounce :
    increased .zero 1000 0 ([⟨0, 1⟩, ⟨120, 0⟩, ⟨150, 1⟩, ⟨2000, 0⟩].take 3) ≤
      increased .zero 100 0 ([⟨0, 1⟩, ⟨120, 0⟩, ⟨150, 1⟩, ⟨2000, 0⟩].take 3) :=
  (raising_debounce .zero .zero 100 1000 0 _ (by decide) (by simp [Timely])).1 3

end Relacon.L2
