import Mathlib.Data.List.Chain
import Relacon.L2Tasks.CountingSound

/-!
# Debouncing with an unbounded clock

`Channel` is one debounced channel on its own: exact times, its own copy of the
debounce time, and no timer that wraps. `counterMachine` runs eight of them on
one array and a 32-bit timer.

* `tracks_poll`: one poll of the automaton on timer readings is one poll of the
  exact automaton, as long as a settling channel was polled recently enough.
* `inStep_run`: in every run of polls at most `2 ^ 32 - 1 - 10000` us apart,
  with the debounce time changed to any setting anywhere, each channel is in the
  state, and has the count, of the exact automaton fed with its own events.
* `debounce_exact`: so settling ends at the first poll after the debounce time in
  force, and a channel depends on nothing but its own events.
-/
namespace Relacon.L2
open Relacon.Core Relacon.L1

/-! ## One channel -/

structure Channel where
  state : DebounceState
  risingEdgeTime : Nat
  count : UInt16
  debounceTime : Nat
  deriving DecidableEq, Repr

inductive ChannelEv where
  | poll (time : Nat) (asserted : Bool)
  | read (resetAfterRead : Bool)
  | debounceTimeSet (debounceTime : Nat)
  deriving DecidableEq, Repr

def Channel.poll (time : Nat) (asserted : Bool) (a : Channel) : Channel :=
  match a.state with
  | .waitingForRisingEdge =>
    if asserted then { a with state := .settling, risingEdgeTime := time, count := a.count + 1 }
    else a
  | .settling =>
    if a.debounceTime < time - a.risingEdgeTime then
      { a with state := if asserted then .waitingForFallingEdge else .waitingForRisingEdge }
    else a
  | .waitingForFallingEdge => if asserted then a else { a with state := .waitingForRisingEdge }

def Channel.step (a : Channel) : ChannelEv → Channel
  | .poll time asserted => a.poll time asserted
  | .read reset => if reset then { a with count := 0 } else a
  | .debounceTimeSet d => { a with debounceTime := d }

def Channel.init (debounceTime : Nat) : Channel := ⟨.waitingForRisingEdge, 0, 0, debounceTime⟩

def channelMachine : Machine Channel ChannelEv :=
  ⟨.init DEFAULT_DEBOUNCE_TIME_US.toNat, Channel.step⟩

/-- What an event of the module is to channel `i`. -/
def chanEvents (i : Fin 8) : CounterEv → List ChannelEv
  | .poll time inputs => [.poll time (bitSet inputs i)]
  | .read index reset => if index.toNat = i.val then [.read reset] else []
  | .debounceTimeSet d => [.debounceTimeSet d.toNat]

/-! ## One poll -/

/-- The automaton on timer readings is where the exact one is. A settling
channel counted its edge at most `B` before the last poll. -/
structure Tracks (B : Nat) (last : Option Nat) (c : EventCounter) (a : Channel) : Prop where
  state : c.state = a.state
  count : c.count = a.count
  recent : a.state = .settling → c.risingEdgeTime = reading a.risingEdgeTime ∧
    ∃ q ∈ last, a.risingEdgeTime ≤ q ∧ q ≤ a.risingEdgeTime + B

theorem tracks_poll {B t : Nat} {last : Option Nat} {c : EventCounter} {a : Channel} {d : UInt32}
    {x : Bool} (hlink : ∀ q ∈ last, q ≤ t ∧ t - q < 2 ^ 32 - B) (hd : a.debounceTime = d.toNat)
    (hB : d.toNat ≤ B) (h : Tracks B last c a) :
    Tracks B (some t) (counterStep (reading t) d x c) (a.poll t x) := by
  obtain ⟨hstate, hcount, hrecent⟩ := h
  cases hs : a.state with
  | waitingForRisingEdge =>
    rw [hs] at hstate
    cases x with
    | true =>
      simp only [counterStep, hstate, Channel.poll, hs, if_true]
      exact ⟨rfl, by rw [hcount], fun _ => ⟨rfl, t, rfl, Nat.le_refl t, Nat.le_add_right t B⟩⟩
    | false =>
      simp only [counterStep, hstate, Channel.poll, hs, Bool.false_eq_true, if_false]
      exact ⟨hstate.trans hs.symm, hcount, fun h => by rw [hs] at h; cases h⟩
  | settling =>
    rw [hs] at hstate
    obtain ⟨hr, q, hq, hrq, hqB⟩ := hrecent hs
    obtain ⟨hqt, hgap⟩ := hlink q hq
    have hexact := elapsed_iff (p := d) (show a.risingEdgeTime ≤ t by omega) (by omega)
    rw [← hr, ← hd] at hexact
    by_cases he : a.debounceTime < t - a.risingEdgeTime
    · have hc : counterStep (reading t) d x c =
          { c with state := if x then .waitingForFallingEdge else .waitingForRisingEdge } := by
        cases x <;> simp [counterStep, hstate, hexact.mpr he]
      simp only [hc, Channel.poll, hs, if_pos he]
      exact ⟨rfl, hcount, fun h => by cases x <;> cases h⟩
    · have hno := mt hexact.mp he
      simp only [counterStep, hstate, hno, if_false, Channel.poll, hs, he]
      exact ⟨hstate.trans hs.symm, hcount, fun _ => ⟨hr, t, rfl, by omega, by omega⟩⟩
  | waitingForFallingEdge =>
    rw [hs] at hstate
    cases x with
    | true =>
      simp only [counterStep, hstate, Channel.poll, hs, if_true, Bool.not_true, Bool.false_eq_true,
        if_false]
      exact ⟨hstate.trans hs.symm, hcount, fun h => by rw [hs] at h; cases h⟩
    | false =>
      simp only [counterStep, hstate, Channel.poll, hs, Bool.not_false, if_true,
        Bool.false_eq_true, if_false]
      exact ⟨rfl, hcount, fun h => by cases h⟩

theorem poll_debounceTime (t : Nat) (x : Bool) (a : Channel) :
    (a.poll t x).debounceTime = a.debounceTime := by
  unfold Channel.poll
  split
  · split <;> rfl
  · split <;> rfl
  · split <;> rfl

/-! ## One event -/

/-- Channel `i` tracks the exact automaton, which has the debounce time in force. -/
structure InStep (i : Fin 8) (last : Option Nat) (ec : EventCounters) (a : Channel) : Prop where
  tracks : Tracks 10000 last (ec.chan i) a
  debounce : a.debounceTime = ec.debounceTimeUs.toNat
  bound : ec.debounceTimeUs.toNat ≤ 10000

theorem inStep_step {i : Fin 8} {last : Option Nat} {ec : EventCounters} {a : Channel}
    {e : CounterEv}
    (hpoll : ∀ t ∈ pollTime e, ∀ q ∈ last, q ≤ t ∧ t - q < 2 ^ 32 - 10000)
    (hset : ∀ d, e = .debounceTimeSet d → d.toNat ≤ 10000) (h : InStep i last ec a) :
    InStep i ((pollTime e).or last) (counterEvStep ec e)
      (channelMachine.runFrom a (chanEvents i e)) := by
  obtain ⟨htracks, hd, hB⟩ := h
  cases e with
  | poll t inputs =>
    have hstep := tracks_poll (x := bitSet inputs i) (hpoll t rfl) hd hB htracks
    rw [← eventCounterSample_chan] at hstep
    exact ⟨hstep, (poll_debounceTime t _ a).trans hd, hB⟩
  | read index reset =>
    have hdeb := eventCounterRead_debounce index reset ec
    by_cases hi : index.toNat = i.val
    · refine ⟨?_, ?_, ?_⟩
      · simp only [counterEvStep, eventCounterRead_chan, chanEvents, hi, and_true, if_true]
        cases reset with
        | true => exact ⟨htracks.state, rfl, htracks.recent⟩
        | false => exact htracks
      · simp only [counterEvStep, hdeb, chanEvents, hi, if_true]
        cases reset <;> exact hd
      · simpa only [counterEvStep, hdeb] using hB
    · have hev : chanEvents i (.read index reset) = [] := if_neg hi
      rw [hev]
      refine ⟨?_, ?_, ?_⟩
      · simp only [counterEvStep, eventCounterRead_chan, hi, and_false, if_false]
        exact htracks
      · simp only [counterEvStep, hdeb]
        exact hd
      · simpa only [counterEvStep, hdeb] using hB
  | debounceTimeSet d =>
    exact ⟨⟨htracks.state, htracks.count, htracks.recent⟩, rfl, hset d rfl⟩

/-! ## Runs -/

/-- Polls at most `2 ^ 32 - 1 - 10000` us apart, and only the debounce times of the settings. -/
structure Paced (evs : List CounterEv) : Prop where
  gaps : (pollTimes evs).IsChain fun p q => p ≤ q ∧ q - p ≤ 2 ^ 32 - 1 - 10000
  settings : ∀ d, .debounceTimeSet d ∈ evs → d ∈ [(100 : UInt32), 1000, 10000]

theorem setting_le {d : UInt32} (h : d ∈ [(100 : UInt32), 1000, 10000]) : d.toNat ≤ 10000 := by
  have key : [(100 : UInt32), 1000, 10000].all (·.toNat ≤ 10000) = true := by decide
  simpa using List.all_eq_true.mp key d h

section
variable {evs : List CounterEv} {e : CounterEv}

theorem Paced.init (h : Paced (evs ++ [e])) : Paced evs := by
  have hgaps := h.gaps
  rw [pollTimes_append] at hgaps
  exact ⟨(List.isChain_append.mp hgaps).1, fun d hd => h.settings d (by simp [hd])⟩

theorem Paced.link (h : Paced (evs ++ [e])) :
    ∀ t ∈ pollTime e, ∀ q ∈ (pollTimes evs).getLast?, q ≤ t ∧ t - q < 2 ^ 32 - 10000 := by
  have hgaps := h.gaps
  rw [pollTimes_append] at hgaps
  obtain ⟨-, -, hlink⟩ := List.isChain_append.mp hgaps
  intro t ht q hq
  have := hlink q hq t (by simp [pollTimes, ht])
  omega

theorem lastPoll_snoc : (pollTimes (evs ++ [e])).getLast? = (pollTime e).or (pollTimes evs).getLast? := by
  rw [pollTimes_append]
  cases e <;> simp [pollTimes, pollTime]

/-- The exact automaton of channel `i`, fed with its part of the run. -/
def channelRun (i : Fin 8) (evs : List CounterEv) : Channel :=
  channelMachine.run (evs.flatMap (chanEvents i))

theorem channelRun_snoc (i : Fin 8) : channelRun i (evs ++ [e]) =
    channelMachine.runFrom (channelRun i evs) (chanEvents i e) := by
  rw [channelRun, List.flatMap_append, Machine.run_append]
  simp [channelRun]

theorem inStep_run (prior : EventCounters) (i : Fin 8) (h : Paced evs) :
    InStep i (pollTimes evs).getLast? ((counterMachine prior).run evs) (channelRun i evs) := by
  have hI : (counterMachine prior).HistInductive Paced fun evs ec =>
      InStep i (pollTimes evs).getLast? ec (channelRun i evs) :=
    { ok := fun h e hp => hp.init
      init := by
        have hchan := eventCounterInit_chan prior i
        have hbound : DEFAULT_DEBOUNCE_TIME_US.toNat ≤ 10000 := by decide
        exact ⟨⟨congrArg EventCounter.state hchan, congrArg EventCounter.count hchan,
          fun hs => by cases hs⟩, rfl, hbound⟩
      step := by
        intro h e hp hinv
        rw [channelRun_snoc, lastPoll_snoc]
        refine inStep_step hp.link ?_ hinv
        rintro d rfl
        exact setting_le (hp.settings d (by simp)) }
  exact hI.run evs h

end

/-- The exact automaton leaves settling with the first poll after the debounce time. -/
theorem poll_settling_iff {a : Channel} (h : a.state = .settling) (t : Nat) (x : Bool) :
    (a.poll t x).state ≠ .settling ↔ a.debounceTime < t - a.risingEdgeTime := by
  simp only [Channel.poll, h]
  by_cases he : a.debounceTime < t - a.risingEdgeTime
  · cases x <;> simp [he]
  · simp [he, h]

/-- **Debouncing with the 32-bit timer equals debouncing with an unbounded clock**,
channel by channel: same state and count, settling ends when the true elapsed
time exceeds the debounce time, and only the channel's own events matter. -/
theorem debounce_exact (prior : EventCounters) (evs : List CounterEv) (h : Paced evs) (i : Fin 8) :
    let c := ((counterMachine prior).run evs).chan i
    (c.state = (channelRun i evs).state ∧ c.count = (channelRun i evs).count) ∧
    (∀ t inputs, Paced (evs ++ [.poll t inputs]) → c.state = .settling →
      ((((counterMachine prior).run (evs ++ [.poll t inputs])).chan i).state ≠ .settling ↔
        ((counterMachine prior).run evs).debounceTimeUs.toNat <
          t - (channelRun i evs).risingEdgeTime)) ∧
    (∀ prior' evs', Paced evs' → evs'.flatMap (chanEvents i) = evs.flatMap (chanEvents i) →
      (((counterMachine prior').run evs').chan i).state = c.state ∧
      (((counterMachine prior').run evs').chan i).count = c.count) := by
  have hrun := inStep_run prior i h
  refine ⟨⟨hrun.tracks.state, hrun.tracks.count⟩, fun t inputs hp hs => ?_, fun prior' evs' hp he => ?_⟩
  · have hnext := inStep_run prior i hp
    rw [hnext.tracks.state, channelRun_snoc, ← hrun.debounce]
    exact poll_settling_iff (hrun.tracks.state.symm.trans hs) t _
  · have hother := inStep_run prior' i hp
    have hsame : channelRun i evs' = channelRun i evs := congrArg channelMachine.run he
    rw [hother.tracks.state, hother.tracks.count, hsame, hrun.tracks.state, hrun.tracks.count]
    exact ⟨rfl, rfl⟩

/-- An edge just before rollover, and the end of its settling period after it. -/
theorem debounce_exact_rollover :
    (((counterMachine .zero).run
      [.poll 4294967290 1, .debounceTimeSet 100, .poll 4294967390 1, .poll 4294967391 0]).chan 0).state =
    (channelRun 0
      [.poll 4294967290 1, .debounceTimeSet 100, .poll 4294967390 1, .poll 4294967391 0]).state := by
  have hgaps : [4294967290, 4294967390, 4294967391].IsChain
      fun p q => p ≤ q ∧ q - p ≤ 2 ^ 32 - 1 - 10000 := by simp
  have hpaced : Paced
      [.poll 4294967290 1, .debounceTimeSet 100, .poll 4294967390 1, .poll 4294967391 0] :=
    ⟨hgaps, by simp⟩
  exact (debounce_exact .zero _ hpaced 0).1.1

end Relacon.L2
