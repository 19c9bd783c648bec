import Relacon.L4Firmware.Failure

/-!
# Arming and disarming the watchdog

Over runs of the firmware, which steps change the watchdog timeout. `Deliberate`
is the intended answer: only the commands `WD0` to `WD3`, and a poll that opens
all relays. `deliberate_iff`: a run is deliberate in every step exactly if no
step of it is a `Slip`, a `WD` command with one character that is no digit, on an
armed watchdog. The setter takes that character for setting 0, since it does not
look at where `strtoul` stopped.
-/
namespace Relacon.L4
open Relacon.Core Relacon.L1 Relacon.L2 Relacon.L3

/-- The step is a call on exactly `WD` and the digit `i`, letters in any case. -/
def IsSetting (i : Nat) (e : Step) : Prop :=
  ∃ buf len, e.action = .processCommand buf len ∧ argsOf WD (cstr buf) = some [asciiDigit i]

/-- A change of the timeout is meant: to zero by `WD0` or by a timeout that opens
all relays, to a period by the command for that period. -/
structure Deliberate (fw : Firmware) (e : Step) : Prop where
  disarm : fw.watchdog.watchdogTimeoutPeriodUs ≠ 0 →
    (step fw e).watchdog.watchdogTimeoutPeriodUs = 0 →
      IsSetting 0 e ∨ (e.action = .watchdogTask ∧ (step fw e).relays = 0)
  arm : (step fw e).watchdog.watchdogTimeoutPeriodUs ≠ fw.watchdog.watchdogTimeoutPeriodUs →
    (step fw e).watchdog.watchdogTimeoutPeriodUs ≠ 0 →
      ∃ i : Fin 4, i ≠ 0 ∧ IsSetting i e ∧
        (step fw e).watchdog.watchdogTimeoutPeriodUs = watchdogTimeOf i

/-- `WD` and one character that is no digit, while the watchdog is armed. -/
def Slip (fw : Firmware) (e : Step) : Prop :=
  fw.watchdog.watchdogTimeoutPeriodUs ≠ 0 ∧ ∃ buf len x, e.action = .processCommand buf len ∧
    argsOf WD (cstr buf) = some [x] ∧ isdigit x = false

theorem watchdogTimeOf_eq_zero_iff (i : Fin 4) : watchdogTimeOf i = 0 ↔ i = 0 := by
  revert i; decide

/-- A command that is a setting of the watchdog: the documented digit, or a stray
character for setting 0. -/
theorem setting_or_stray {buf : List UInt8} {len : Nat} {e : Step} {i : Fin 4}
    (ha : e.action = .processCommand buf len) (hd : decode (cstr buf) = some (.setWatchdog i)) :
    IsSetting i e ∨ (i = 0 ∧ ∃ x, argsOf WD (cstr buf) = some [x] ∧ isdigit x = false) := by
  obtain ⟨c, hargs, hset⟩ := decode_setWatchdog_iff.mp hd
  rcases (settingArg_iff (by decide)).mp hset with hc | ⟨h0, x, hx, hc⟩
  · exact .inl ⟨buf, len, ha, hc ▸ hargs⟩
  · exact .inr ⟨Fin.ext h0, x, hc ▸ hargs, hx⟩

theorem deliberate_of_not_slip {fw : Firmware} {e : Step} (h : ¬ Slip fw e) : Deliberate fw e := by
  have hp := step_period fw e
  have hodr := step_gpioAOdr fw e
  cases ha : e.action with
  | processCommand buf len =>
    simp only [ha] at hp
    split at hp
    · rename_i i hd
      have hsrc := setting_or_stray ha hd
      refine ⟨fun hne h0 => ?_, fun hch hne => ?_⟩
      · have hi : i = 0 := (watchdogTimeOf_eq_zero_iff i).mp (hp.symm.trans h0)
        subst hi
        rcases hsrc with hset | ⟨-, x, hargs, hx⟩
        · exact .inl hset
        · exact (h ⟨hne, buf, len, x, ha, hargs, hx⟩).elim
      · have hi : i ≠ 0 := fun hi => hne (hp.trans ((watchdogTimeOf_eq_zero_iff i).mpr hi))
        rcases hsrc with hset | ⟨hi0, -⟩
        · exact ⟨i, hi, hset, hp⟩
        · exact (hi hi0).elim
    · exact ⟨fun hne h0 => (hne (hp.symm.trans h0)).elim, fun hch _ => (hch hp).elim⟩
  | eventCounterTask =>
    simp only [ha] at hp
    exact ⟨fun hne h0 => (hne (hp.symm.trans h0)).elim, fun hch _ => (hch hp).elim⟩
  | watchdogTask =>
    simp only [ha] at hp hodr
    split at hp
    · rename_i hto
      rw [if_pos hto] at hodr
      refine ⟨fun _ _ => .inr ⟨ha, ?_⟩, fun _ hne => (hne hp).elim⟩
      rw [Firmware.relays, hodr, boardReadRelays_write]
    · exact ⟨fun hne h0 => (hne (hp.symm.trans h0)).elim, fun hch _ => (hch hp).elim⟩

theorem not_deliberate_of_slip {fw : Firmware} {e : Step} (h : Slip fw e) : ¬ Deliberate fw e := by
  obtain ⟨hne, buf, len, x, ha, hargs, hx⟩ := h
  have hd := decode_strayWatchdog hargs hx
  have hp := step_period fw e
  simp only [ha, hd] at hp
  intro hdel
  rcases hdel.disarm hne hp with ⟨buf', len', ha', hargs'⟩ | ⟨ha', -⟩
  · rw [ha, Action.processCommand.injEq] at ha'
    rw [← ha'.1, hargs, Option.some.injEq, List.cons.injEq] at hargs'
    rw [hargs'.1, isdigit_asciiDigit (by decide)] at hx
    cases hx
  · rw [ha] at ha'
    cases ha'

/-- **An armed watchdog is not disarmed by accident** in a run without slips, and
in no other run. -/
theorem deliberate_iff (evs : List Step) :
    firmware.Always Deliberate evs ↔ firmware.Always (fun fw e => ¬ Slip fw e) evs :=
  Machine.always_iff ok_inductive (fun _ _ _ =>
    ⟨fun hdel hslip => not_deliberate_of_slip hslip hdel, deliberate_of_not_slip⟩) evs

/-- `WD1` arms the watchdog and `WDx` disarms it. -/
theorem deliberate_fails : ¬ ∀ evs, firmware.Always Deliberate evs := by
  intro h
  have hdel := h
    [⟨⟨0, 0, 0⟩, .processCommand (ascii ['W', 'D', '1'] ++ [0]) 4⟩,
     ⟨⟨0, 0, 0⟩, .processCommand (ascii ['W', 'D', 'x'] ++ [0]) 4⟩]
    [⟨⟨0, 0, 0⟩, .processCommand (ascii ['W', 'D', '1'] ++ [0]) 4⟩] _ [] rfl
  refine not_deliberate_of_slip ⟨?_, _, _, 'x'.toUInt8, rfl, ?_, ?_⟩ hdel <;> decide +kernel

end Relacon.L4
