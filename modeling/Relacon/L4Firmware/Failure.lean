import Relacon.L3Protocol.Grammar
import Relacon.L4Firmware.Run

/-!
# Commands that fail

`Unchanged` is what a failed command must leave alone: the relay port, the event
counters with the debounce time, and the watchdog timeout. Two results say
exactly when a command string does:

* `failed_unchanged_iff`: a command that reports failure changes nothing, unless
  it is `WD` with a setting (`Rearms`): `HandlerWatchdogSetting` sets the timeout
  and leaves `success` false;
* `rejected_iff`: a string outside the documented grammar fails and changes
  nothing, unless it is one of the strings of `Tolerated`, which the handlers
  take for a number because they do not look at where `strtoul` stopped, or at
  whether it converted anything.
-/
namespace Relacon.L4
open Relacon.Core Relacon.L1 Relacon.L2 Relacon.L3

/-- Relay port, event counters, debounce time and watchdog timeout are the same. -/
def Unchanged (fw fw' : Firmware) : Prop :=
  fw'.gpioAOdr = fw.gpioAOdr ∧ fw'.events = fw.events ∧
    fw'.watchdog.watchdogTimeoutPeriodUs = fw.watchdog.watchdogTimeoutPeriodUs

instance (fw fw' : Firmware) : Decidable (Unchanged fw fw') := inferInstanceAs (Decidable (_ ∧ _ ∧ _))

/-- `WD` with a setting other than the one in force. -/
def Rearms (fw : Firmware) (s : List UInt8) : Prop :=
  ∃ (c : UInt8) (i : Fin 4), argsOf WD s = some [c] ∧ settingArg 4 [c] = some i ∧
    watchdogTimeOf i ≠ fw.watchdog.watchdogTimeoutPeriodUs

/-- Strings outside the grammar that the handlers act on. -/
def Tolerated (fw : Firmware) (s : List UInt8) : Prop :=
  (∃ a, argsOf MK s = some a ∧ LooseByte a) ∨
    (∃ x, argsOf DB s = some [x] ∧ isdigit x = false) ∨
    (∃ x, argsOf WD s = some [x] ∧ isdigit x = false ∧ fw.watchdog.watchdogTimeoutPeriodUs ≠ 0)

/-! ## The outcome of a command -/

/-- Only a watchdog setting can report failure and still change something. -/
theorem exec_unchanged (r : Readings) (fw : Firmware) (c : Command) (h : (exec r fw c).1 = false) :
    Unchanged fw (exec r fw c).2 ↔
      ∀ i, c = .setWatchdog i → watchdogTimeOf i = fw.watchdog.watchdogTimeoutPeriodUs := by
  rw [Unchanged, exec_gpioAOdr, exec_events, exec_watchdog]
  rw [exec_success] at h
  cases c with
  | getDebounce | getWatchdog => simp
  | setWatchdog i => simp
  | _ => cases h

section
variable (r : Readings) (fw : Firmware) (s rest : List UInt8) (len : Nat)

/-- The call on the command string `s` in memory. -/
def processString : Bool × Firmware := aduProtocolProcessCommand r (s ++ 0 :: rest) len fw

variable {s} (hs : ∀ c ∈ s, c ≠ 0)
include hs

theorem processString_none (h : decode s = none) :
    (processString r fw s rest len).1 = false ∧ Unchanged fw (processString r fw s rest len).2 := by
  have hmem := cstr_append_nul hs rest
  refine ⟨?_, ?_, ?_, ?_⟩
  · rw [processString, processCommand_success, hmem, h]
  · rw [processString, processCommand_gpioAOdr, hmem, h]
  · rw [processString, processCommand_events, hmem, h]
  · rw [processString, processCommand_watchdog, hmem, h, watchdogKick_period]

theorem processString_some {c : Command} (h : decode s = some c) :
    (processString r fw s rest len).1 = (exec r fw c).1 ∧
      (Unchanged fw (processString r fw s rest len).2 ↔ Unchanged fw (exec r fw c).2) := by
  have hmem := cstr_append_nul hs rest
  refine ⟨?_, ?_⟩
  · rw [processString, processCommand_success, hmem, h]
  · rw [Unchanged, Unchanged, processString, processCommand_gpioAOdr, processCommand_events,
      processCommand_watchdog, hmem, h, watchdogKick_period]

/-- **A failed command is a no-op**, unless it is a new watchdog setting. -/
theorem failed_unchanged_iff :
    ((processString r fw s rest len).1 = false → Unchanged fw (processString r fw s rest len).2) ↔
      ¬ Rearms fw s := by
  cases hd : decode s with
  | none =>
    have hno : ¬ Rearms fw s := by
      rintro ⟨c, i, hargs, hset, -⟩
      have := decode_setWatchdog_iff.mpr ⟨c, hargs, hset⟩
      rw [hd] at this
      cases this
    exact iff_of_true (fun _ => (processString_none r fw rest len hs hd).2) hno
  | some c =>
    obtain ⟨hres, hsame⟩ := processString_some r fw rest len hs hd
    rw [hres, hsame]
    refine ⟨fun h => ?_, fun hno => ?_⟩
    · rintro ⟨x, i, hargs, hset, hne⟩
      have hc := decode_setWatchdog_iff.mpr ⟨x, hargs, hset⟩
      rw [hd, Option.some.injEq] at hc
      subst hc
      exact hne ((exec_unchanged r fw _ rfl).mp (h rfl) i rfl)
    · intro hfail
      rw [exec_unchanged r fw c hfail]
      rintro i rfl
      obtain ⟨x, hargs, hset⟩ := decode_setWatchdog_iff.mp hd
      by_contra hne
      exact hno ⟨x, i, hargs, hset, hne⟩

omit hs in
/-- `WD1` from the initial state sets the timeout and reports failure. -/
theorem failed_changes : ¬ ∀ fw, firmware.Reachable fw → ∀ (r : Readings) (s rest : List UInt8)
    (len : Nat), (∀ c ∈ s, c ≠ 0) → (processString r fw s rest len).1 = false →
      Unchanged fw (processString r fw s rest len).2 := by
  intro h
  have := h init (firmware.reachable_run []) ⟨0, 0, 0⟩ (ascii ['W', 'D', '1']) [] 4
    (ascii_no_nul (by decide))
  exact absurd this (by decide +kernel)

omit hs in
/-- `WD1` and `SK8` from the initial state; `SK8` fails and changes nothing. -/
theorem failed_unchanged_init :
    (((processString ⟨0, 0, 0⟩ init (ascii ['W', 'D', '1']) [] 4).1 = false →
      Unchanged init (processString ⟨0, 0, 0⟩ init (ascii ['W', 'D', '1']) [] 4).2) ↔
      ¬ Rearms init (ascii ['W', 'D', '1'])) ∧
    (processString ⟨0, 0, 0⟩ init (ascii ['S', 'K', '8']) [] 4).1 = false ∧
      Unchanged init (processString ⟨0, 0, 0⟩ init (ascii ['S', 'K', '8']) [] 4).2 := by
  have hfails : (processString ⟨0, 0, 0⟩ init (ascii ['S', 'K', '8']) [] 4).1 = false := by
    decide +kernel
  have hother : ¬ Rearms init (ascii ['S', 'K', '8']) := by
    rintro ⟨c, i, hargs, -⟩
    have hnone : argsOf WD (ascii ['S', 'K', '8']) = none := by decide
    rw [hnone] at hargs
    cases hargs
  refine ⟨failed_unchanged_iff ⟨0, 0, 0⟩ init [] 4 (ascii_no_nul (by decide)), hfails, ?_⟩
  exact (failed_unchanged_iff ⟨0, 0, 0⟩ init [] 4 (ascii_no_nul (by decide))).mpr hother hfails

/-- **Strings outside the grammar are rejected**, unless they are tolerated. -/
theorem rejected_iff (hg : inGrammar s = false) :
    ((processString r fw s rest len).1 = false ∧ Unchanged fw (processString r fw s rest len).2) ↔
      ¬ Tolerated fw s := by
  refine ⟨fun h => ?_, fun hno => ?_⟩
  · obtain ⟨hfail, hsame⟩ := h
    rintro (⟨a, hargs, hl⟩ | ⟨x, hargs, hx⟩ | ⟨x, hargs, hx, hne⟩)
    · obtain ⟨v, hd⟩ := decode_strayByte hargs hl
      rw [(processString_some r fw rest len hs hd).1] at hfail
      cases hfail
    · rw [(processString_some r fw rest len hs (decode_strayDebounce hargs hx)).1] at hfail
      cases hfail
    · rw [(processString_some r fw rest len hs (decode_strayWatchdog hargs hx)).2,
        exec_unchanged r fw _ rfl] at hsame
      exact hne (hsame _ rfl).symm
  · cases hd : decode s with
    | none =>
      exact processString_none r fw rest len hs hd
    | some c =>
      obtain ⟨hres, hsame⟩ := processString_some r fw rest len hs hd
      rcases decode_outside hg hd with ⟨a, v, hargs, hl, -⟩ | ⟨x, hargs, hx, -⟩ | ⟨x, hargs, hx, rfl⟩
      · exact (hno (.inl ⟨a, hargs, hl⟩)).elim
      · exact (hno (.inr (.inl ⟨x, hargs, hx⟩))).elim
      · rw [hres, hsame]
        refine ⟨rfl, (exec_unchanged r fw _ rfl).mpr ?_⟩
        rintro i ⟨⟩
        by_contra hne
        exact hno (.inr (.inr ⟨x, hargs, hx, fun h0 => hne h0.symm⟩))

omit hs in
/-- With relay 0 closed, `MK` alone opens it and reports success. -/
theorem rejected_fails : ¬ ∀ fw, firmware.Reachable fw → ∀ (r : Readings) (s rest : List UInt8)
    (len : Nat), (∀ c ∈ s, c ≠ 0) → inGrammar s = false →
      (processString r fw s rest len).1 = false ∧ Unchanged fw (processString r fw s rest len).2 := by
  intro h
  have := h (firmware.run [⟨⟨0, 0, 0⟩, .processCommand (ascii ['S', 'K', '0'] ++ [0]) 4⟩])
    (firmware.reachable_run _) ⟨0, 0, 0⟩ (ascii ['M', 'K']) [] 3 (ascii_no_nul (by decide)) (by decide)
  exact absurd this (by decide +kernel)

omit hs in
theorem rejected_disarmed :
    ((processString ⟨0, 0, 0⟩ init (ascii ['W', 'D', '?']) [] 4).1 = false ∧
      Unchanged init (processString ⟨0, 0, 0⟩ init (ascii ['W', 'D', '?']) [] 4).2) ↔
      ¬ Tolerated init (ascii ['W', 'D', '?']) :=
  rejected_iff ⟨0, 0, 0⟩ init [] 4 (ascii_no_nul (by decide)) (by decide)
end

end Relacon.L4
