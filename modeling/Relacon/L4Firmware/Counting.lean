import Relacon.L3Protocol.Answers
import Relacon.L3Protocol.Syntax
import Relacon.L4Firmware.Run

/-!
# Reading and resetting the event counters

`counts n` and `resets n` say which steps of a run count an event on channel `n`
and which are a successful `RCn`. `reading_conserves`:

* `REn` and `RCn` report the events counted since the last `RCn`, modulo 2^16, as
  five digits;
* the values returned by `RCn` and the current count add up to the events
  counted, modulo 2^16, so none is lost or reported twice;
* a read of one channel leaves the other counts and every debounce state alone;
  an input that stays asserted is not counted again, whatever is reset meanwhile.
-/
namespace Relacon.L4
open Relacon.Core Relacon.L1 Relacon.L2 Relacon.L3

/-- `EventCounterTask` puts the count of channel `n` one higher (modulo 2^16). -/
def counts (n : Fin 8) (fw : Firmware) (e : Step) : Bool :=
  match e.action with
  | .eventCounterTask => ((step fw e).events.chan n).count == (fw.events.chan n).count + 1
  | _ => false

/-- The step is a successful `RCn`. -/
def resets (n : Fin 8) (fw : Firmware) (e : Step) : Bool :=
  match e.action with
  | .processCommand buf len =>
    (aduProtocolProcessCommand e.readings buf len fw).1 && argsOf RC (cstr buf) == some [asciiDigit n]
  | _ => false

/-- The events counted on channel `n` since the last successful `RCn`. -/
def sinceReset (n : Fin 8) : List Step → Nat :=
  firmware.ghost (fun acc fw e => if resets n fw e then 0 else acc + (counts n fw e).toNat) 0

/-- All events counted on channel `n`. -/
def counted (n : Fin 8) : List Step → Nat := firmware.total fun fw e => (counts n fw e).toNat

/-- The sum of the values that successful `RCn` commands returned. -/
def returned (n : Fin 8) : List Step → Nat :=
  firmware.total fun fw e => if resets n fw e then ofNumeral 10 (step fw e).response.bytes else 0

/-! ## One step -/

theorem resets_iff {n : Fin 8} {fw : Firmware} {e : Step} :
    resets n fw e = true ↔ ∃ buf len, e.action = .processCommand buf len ∧
      decode (cstr buf) = some (.readAndResetEventCounter n) := by
  unfold resets
  cases ha : e.action with
  | processCommand buf len =>
    simp only [Bool.and_eq_true, beq_iff_eq, ← decode_readAndResetEventCounter_iff,
      Action.processCommand.injEq]
    refine ⟨fun h => ?_, fun h => ?_⟩
    · exact ⟨buf, len, ⟨rfl, rfl⟩, h.2⟩
    · obtain ⟨buf', len', ⟨rfl, rfl⟩, hd⟩ := h
      exact ⟨by rw [processCommand_success, hd]; rfl, hd⟩
  | eventCounterTask => simp
  | watchdogTask => simp

/-- A step resets the count, raises it by one, or leaves it. -/
theorem count_step (n : Fin 8) (fw : Firmware) (e : Step) : ((step fw e).events.chan n).count =
    if resets n fw e then 0
    else if counts n fw e then (fw.events.chan n).count + 1 else (fw.events.chan n).count := by
  have hchan := step_chan fw e n
  by_cases hr : resets n fw e = true
  · obtain ⟨buf, len, ha, hd⟩ := resets_iff.mp hr
    simp only [ha, hd, if_true] at hchan
    rw [if_pos hr, hchan]
  · rw [if_neg hr]
    cases ha : e.action with
    | processCommand buf len =>
      have hd : decode (cstr buf) ≠ some (.readAndResetEventCounter n) :=
        fun hd => hr (resets_iff.mpr ⟨buf, len, ha, hd⟩)
      simp only [ha, if_neg hd] at hchan
      simp [counts, ha, hchan]
    | eventCounterTask =>
      have hc : counts n fw e = (((step fw e).events.chan n).count == (fw.events.chan n).count + 1) := by
        simp [counts, ha]
      simp only [ha] at hchan
      rw [hc, hchan]
      rcases counterStep_count e.readings.elapsedTimeUs fw.events.debounceTimeUs
        (bitSet (boardReadDigitalInputs e.readings) n) (fw.events.chan n) with h | h <;> simp [h]
    | watchdogTask =>
      simp only [ha] at hchan
      simp [counts, ha, hchan]

/-- A reset is not a count. -/
theorem counts_of_resets {n : Fin 8} {fw : Firmware} {e : Step} (h : resets n fw e = true) :
    counts n fw e = false := by
  obtain ⟨buf, len, ha, -⟩ := resets_iff.mp h
  simp [counts, ha]

/-! ## Responses -/

/-- The call is `REn` or `RCn`. -/
def Reads (n : Fin 8) (buf : List UInt8) : Prop :=
  argsOf RE (cstr buf) = some [asciiDigit n] ∨ argsOf RC (cstr buf) = some [asciiDigit n]

section
variable {n : Fin 8} {r : Readings} {buf : List UInt8} {len : Nat} {fw : Firmware}

/-- `REn` and `RCn` both report the count, whether or not they reset it. -/
theorem reads_response (h : Reads n buf) :
    (aduProtocolProcessCommand r buf len fw).1 = true ∧
      IsDecimal 5 (fw.events.chan n).count.toNat
        (aduProtocolProcessCommand r buf len fw).2.response.bytes := by
  have hlt := (fw.events.chan n).count.toNat_lt
  have hreads : (aduProtocolProcessCommand r buf len fw).1 = true ∧
      (aduProtocolProcessCommand r buf len fw).2.response.bytes =
        numeral 10 5 (fw.events.chan n).count.toNat := by
    rcases h with h | h
    · exact responds r buf len fw (decode_readEventCounter_iff.mpr h) rfl
    · exact responds r buf len fw (decode_readAndResetEventCounter_iff.mpr h) rfl
  rw [hreads.2]
  exact ⟨hreads.1, isDecimal_numeral (by omega)⟩

/-- A read touches no debounce state, and no count of another channel. -/
theorem reads_frame (h : Reads n buf) (m : Fin 8) :
    ((aduProtocolProcessCommand r buf len fw).2.events.chan m).state = (fw.events.chan m).state ∧
      ((aduProtocolProcessCommand r buf len fw).2.events.chan m).risingEdgeTime =
        (fw.events.chan m).risingEdgeTime ∧
      (m ≠ n → ((aduProtocolProcessCommand r buf len fw).2.events.chan m).count =
        (fw.events.chan m).count) := by
  have hchan := step_chan fw ⟨r, .processCommand buf len⟩ m
  simp only [step] at hchan
  rw [hchan]
  split
  · rename_i hd
    refine ⟨rfl, rfl, fun hne => (hne ?_).elim⟩
    rcases h with h | h
    · rw [decode_readEventCounter_iff.mpr h] at hd
      cases hd
    · rw [decode_readAndResetEventCounter_iff.mpr h] at hd
      cases hd
      rfl
  · exact ⟨rfl, rfl, fun _ => rfl⟩

end

/-- What a successful `RCn` returns is the count it clears. -/
theorem returned_step {n : Fin 8} {fw : Firmware} {e : Step} (h : resets n fw e = true) :
    ofNumeral 10 (step fw e).response.bytes = (fw.events.chan n).count.toNat := by
  obtain ⟨buf, len, ha, hd⟩ := resets_iff.mp h
  rw [step, ha]
  exact (reads_response (.inr (decode_readAndResetEventCounter_iff.mp hd))).2.value

/-! ## Runs -/

theorem init_count (n : Fin 8) : (init.events.chan n).count = 0 := by
  rw [init, eventCounterInit_chan]

theorem count_sinceReset (n : Fin 8) (evs : List Step) :
    ((firmware.run evs).events.chan n).count.toNat = sinceReset n evs % 65536 := by
  induction evs using List.reverseRecOn with
  | nil => exact congrArg UInt16.toNat (init_count n)
  | append_singleton h e ih =>
    have hstep : firmware.run (h ++ [e]) = step (firmware.run h) e := firmware.run_snoc h e
    rw [hstep, count_step, sinceReset, Machine.ghost_snoc, ← sinceReset]
    split
    · rfl
    · cases counts n (firmware.run h) e with
      | false => simpa using ih
      | true =>
        simp only [if_true, UInt16.toNat_add, ih, Bool.toNat_true]
        simp

theorem conservation (n : Fin 8) (evs : List Step) :
    (returned n evs + ((firmware.run evs).events.chan n).count.toNat) % 65536 =
      counted n evs % 65536 := by
  induction evs using List.reverseRecOn with
  | nil =>
    have h0 : ((firmware.run []).events.chan n).count = 0 := init_count n
    rw [h0]
    rfl
  | append_singleton h e ih =>
    have hstep : firmware.run (h ++ [e]) = step (firmware.run h) e := firmware.run_snoc h e
    rw [hstep, count_step, returned, counted, Machine.total_snoc, Machine.total_snoc, ← returned,
      ← counted]
    by_cases hr : resets n (firmware.run h) e = true
    · rw [if_pos hr, if_pos hr, returned_step hr, counts_of_resets hr]
      simpa using ih
    · rw [if_neg hr, if_neg hr]
      cases counts n (firmware.run h) e with
      | false => simpa using ih
      | true =>
        simp only [if_true, UInt16.toNat_add, Bool.toNat_true, Nat.add_zero]
        have h1 : (1 : UInt16).toNat = 1 := rfl
        rw [h1]
        omega

/-! ## Inputs that stay asserted -/

/-- The step does not sample input `n` low. -/
def Asserts (n : Fin 8) (e : Step) : Prop :=
  e.action = .eventCounterTask → bitSet (boardReadDigitalInputs e.readings) n = true

theorem asserted_step {n : Fin 8} {fw : Firmware} {e : Step} (ha : Asserts n e)
    (h : (fw.events.chan n).state ≠ .waitingForRisingEdge) :
    ((step fw e).events.chan n).state ≠ .waitingForRisingEdge ∧ counts n fw e = false := by
  have hchan := step_chan fw e n
  cases hact : e.action with
  | processCommand buf len =>
    simp only [hact] at hchan
    rw [hchan]
    refine ⟨?_, by simp [counts, hact]⟩
    split <;> exact h
  | eventCounterTask =>
    simp only [hact, ha hact] at hchan
    refine ⟨by rw [hchan]; exact counterStep_asserted _ _ _, ?_⟩
    simp [counts, hact, hchan, counterStep_count_eq h]
  | watchdogTask =>
    simp only [hact] at hchan
    rw [hchan]
    exact ⟨h, by simp [counts, hact]⟩

theorem asserted_run (n : Fin 8) (evs mid : List Step) (p : Step)
    (hp : p.action = .eventCounterTask) (ha : ∀ e ∈ p :: mid, Asserts n e) :
    ((firmware.run (evs ++ p :: mid)).events.chan n).state ≠ .waitingForRisingEdge ∧
      counted n (evs ++ p :: mid) = counted n (evs ++ [p]) := by
  induction mid using List.reverseRecOn with
  | nil =>
    refine ⟨?_, rfl⟩
    have hchan := step_chan (firmware.run evs) p n
    simp only [hp, ha p (by simp) hp] at hchan
    have hstep : firmware.run (evs ++ [p]) = step (firmware.run evs) p := firmware.run_snoc evs p
    rw [hstep, hchan]
    exact counterStep_asserted _ _ _
  | append_singleton mid e ih =>
    obtain ⟨hs, hc⟩ := ih fun x hx => ha x (by simp at hx ⊢; tauto)
    obtain ⟨hs', hc'⟩ := asserted_step (ha e (by simp)) hs
    have hlist : evs ++ p :: (mid ++ [e]) = (evs ++ p :: mid) ++ [e] := by simp
    rw [hlist, counted, Machine.total_snoc, ← counted, hc, hc', Machine.run_snoc]
    exact ⟨hs', rfl⟩

/-- **No event is lost or reported twice by reading.** -/
theorem reading_conserves (evs : List Step) (n : Fin 8) :
    (∀ r buf len, Reads n buf →
      (aduProtocolProcessCommand r buf len (firmware.run evs)).1 = true ∧
      IsDecimal 5 (sinceReset n evs % 65536)
        (aduProtocolProcessCommand r buf len (firmware.run evs)).2.response.bytes) ∧
    (returned n evs + ((firmware.run evs).events.chan n).count.toNat) % 65536 =
      counted n evs % 65536 ∧
    (∀ r buf len, Reads n buf → ∀ m : Fin 8,
      let after := (aduProtocolProcessCommand r buf len (firmware.run evs)).2.events.chan m
      let before := (firmware.run evs).events.chan m
      after.state = before.state ∧ after.risingEdgeTime = before.risingEdgeTime ∧
        (m ≠ n → after.count = before.count)) ∧
    (∀ p mid, p.action = .eventCounterTask → (∀ e ∈ p :: mid, Asserts n e) →
      counted n (evs ++ p :: mid) = counted n (evs ++ [p])) := by
  refine ⟨fun r buf len h => ?_, conservation n evs, fun r buf len h m => reads_frame h m,
    fun p mid hp ha => (asserted_run n evs mid p hp ha).2⟩
  rw [← count_sinceReset]
  exact reads_response h

end Relacon.L4
