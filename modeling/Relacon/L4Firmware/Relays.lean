import Relacon.L3Protocol.Answers
import Relacon.L3Protocol.Syntax
import Relacon.L4Firmware.Run

/-!
# The last writer of each relay

`relayWrite r` is what a step of the firmware writes to relay `r`, read off the
command string, its result and the watchdog test. `relay_last`: after every run,
relay `r` is as the last such write left it, and open if there was none; a step
that writes no relay leaves the port alone. `PK` and `RPKr` read the port back.
-/
namespace Relacon.L4
open Relacon.Core Relacon.L1 Relacon.L2 Relacon.L3

/-- What the step writes to relay `n`: `true` for closed. -/
def relayWrite (n : Fin 8) (fw : Firmware) (e : Step) : Option Bool :=
  match e.action with
  | .processCommand buf len =>
    if (aduProtocolProcessCommand e.readings buf len fw).1 then
      if argsOf SK (cstr buf) = some [asciiDigit n] then some true
      else if argsOf RK (cstr buf) = some [asciiDigit n] then some false
      else (argsOf MK (cstr buf)).map fun a => bitSet (strtoul a).1.toUInt8 n
    else none
  | .eventCounterTask => none
  | .watchdogTask => if timedOut e.readings fw.watchdog then some false else none

/-! ## Writes, read off the decoded command -/

theorem asciiDigit_eq_iff {m n : Fin 8} : asciiDigit m = asciiDigit n ↔ m = n := by
  refine ⟨fun h => ?_, fun h => ?_⟩
  · exact Fin.ext (asciiDigit_inj (by omega) (by omega) h)
  · subst h
    rfl

theorem relayWrite_command {n : Fin 8} {fw : Firmware} {e : Step} {buf : List UInt8} {len : Nat}
    (ha : e.action = .processCommand buf len) :
    relayWrite n fw e = match decode (cstr buf) with
      | some (.setRelay m) => if m = n then some true else none
      | some (.clearRelay m) => if m = n then some false else none
      | some (.writeRelayPort v) => some (bitSet v n)
      | _ => none := by
  simp only [relayWrite, ha, processCommand_success]
  cases hd : decode (cstr buf) with
  | none => rfl
  | some c =>
    obtain ⟨a, hargs, hc⟩ := (decode_iff _ _).mp hd
    cases c with
    | setRelay m =>
      have hRK := argsOf_other (h := .clearRelay) rfl (by decide) (by simp [Command.handler]) hargs
      have hMK := argsOf_other (h := .writeRelayPort) rfl (by decide) (by simp [Command.handler]) hargs
      simp only [HandlerFn.commandPrefix] at hRK hMK
      simp [exec, decode_setRelay_iff.mp hd, hRK, hMK, asciiDigit_eq_iff]
    | clearRelay m =>
      have hSK := argsOf_other (h := .setRelay) rfl (by decide) (by simp [Command.handler]) hargs
      have hMK := argsOf_other (h := .writeRelayPort) rfl (by decide) (by simp [Command.handler]) hargs
      simp only [HandlerFn.commandPrefix] at hSK hMK
      simp [exec, decode_clearRelay_iff.mp hd, hSK, hMK, asciiDigit_eq_iff]
    | writeRelayPort v =>
      have hSK := argsOf_other (h := .setRelay) rfl (by decide) (by simp [Command.handler]) hargs
      have hRK := argsOf_other (h := .clearRelay) rfl (by decide) (by simp [Command.handler]) hargs
      simp only [HandlerFn.commandPrefix] at hSK hRK
      have hv : byteArg a = some v := by simpa [HandlerFn.decode, Command.handler] using hc
      have hargs' : argsOf MK (cstr buf) = some a := hargs
      unfold byteArg at hv
      split at hv
      · cases hv
        simp [exec, hargs', hSK, hRK]
      · cases hv
    | _ =>
      have hSK := argsOf_other (h := .setRelay) rfl (by decide) (by simp [Command.handler]) hargs
      have hRK := argsOf_other (h := .clearRelay) rfl (by decide) (by simp [Command.handler]) hargs
      have hMK := argsOf_other (h := .writeRelayPort) rfl (by decide) (by simp [Command.handler]) hargs
      simp only [HandlerFn.commandPrefix] at hSK hRK hMK
      simp [hSK, hRK, hMK]

/-! ## One step -/

theorem relay_step (n : Fin 8) (fw : Firmware) (e : Step) :
    bitSet (step fw e).relays n = (relayWrite n fw e).getD (bitSet fw.relays n) := by
  have hodr := step_gpioAOdr fw e
  cases ha : e.action with
  | processCommand buf len =>
    rw [relayWrite_command ha]
    simp only [ha] at hodr
    rw [Firmware.relays, hodr]
    cases hd : decode (cstr buf) with
    | none => rfl
    | some c =>
      cases c with
      | setRelay m =>
        simp only [boardReadRelays_write, bitSet_setBit _ m.isLt]
        by_cases h : m = n
        · simp [h]
        · have hne : n.val ≠ m.val := fun hv => h (Fin.ext hv.symm)
          simp [h, hne]
      | clearRelay m =>
        simp only [boardReadRelays_write, bitSet_clearBit _ m.isLt n.isLt]
        by_cases h : m = n
        · simp [h]
        · have hne : n.val ≠ m.val := fun hv => h (Fin.ext hv.symm)
          simp [h, hne]
      | writeRelayPort v => simp
      | _ => rfl
  | eventCounterTask =>
    simp only [ha] at hodr
    simp [Firmware.relays, hodr, relayWrite, ha]
  | watchdogTask =>
    simp only [ha] at hodr
    simp only [relayWrite, ha]
    rw [Firmware.relays, hodr]
    split
    · simp [bitSet_zero]
    · rfl

theorem relay_frame {fw : Firmware} {e : Step} (h : ∀ m, relayWrite m fw e = none) :
    (step fw e).relays = fw.relays := by
  apply byte_ext
  intro i hi
  have := relay_step ⟨i, hi⟩ fw e
  rwa [h ⟨i, hi⟩, Option.getD_none] at this

/-! ## Reading the port back -/

section
variable (r : Readings) (buf : List UInt8) (len : Nat) (fw : Firmware)

theorem readRelayPort_response (h : argsOf PK (cstr buf) = some []) :
    (aduProtocolProcessCommand r buf len fw).1 = true ∧
      IsDecimal 3 fw.relays.toNat (aduProtocolProcessCommand r buf len fw).2.response.bytes := by
  have hd : decode (cstr buf) = some .readRelayPort :=
    decode_of_args (h := .readRelayPortDecimal) h rfl
  have hlt := fw.relays.toNat_lt
  obtain ⟨hsuccess, hbytes⟩ := responds r buf len fw hd rfl
  rw [hbytes]
  exact ⟨hsuccess, isDecimal_numeral (by omega)⟩

theorem readSingleRelay_response {n : Fin 8} (h : argsOf RPK (cstr buf) = some [asciiDigit n]) :
    (aduProtocolProcessCommand r buf len fw).1 = true ∧
      (aduProtocolProcessCommand r buf len fw).2.response.bytes =
        [if bitSet fw.relays n then '1'.toUInt8 else '0'.toUInt8] := by
  rw [← numeral_bitByte]
  exact responds r buf len fw (decode_readSingleRelay_iff.mpr h) rfl

end

/-- **The last writer of a relay** decides its state, nothing else changes a
relay, and both commands that read relays report it. -/
theorem relay_last (evs : List Step) (n : Fin 8) :
    bitSet (firmware.run evs).relays n = (firmware.latest (relayWrite n) evs).getD false ∧
      (∀ e, (∀ m, relayWrite m (firmware.run evs) e = none) →
        (step (firmware.run evs) e).relays = (firmware.run evs).relays) ∧
      (∀ r buf len, argsOf PK (cstr buf) = some [] →
        (aduProtocolProcessCommand r buf len (firmware.run evs)).1 = true ∧
        IsDecimal 3 (firmware.run evs).relays.toNat
          (aduProtocolProcessCommand r buf len (firmware.run evs)).2.response.bytes) ∧
      (∀ r buf len, argsOf RPK (cstr buf) = some [asciiDigit n] →
        (aduProtocolProcessCommand r buf len (firmware.run evs)).1 = true ∧
        (aduProtocolProcessCommand r buf len (firmware.run evs)).2.response.bytes =
          [if bitSet (firmware.run evs).relays n then '1'.toUInt8 else '0'.toUInt8]) := by
  refine ⟨?_, fun e => relay_frame, fun r buf len => readRelayPort_response r buf len _,
    fun r buf len => readSingleRelay_response r buf len _⟩
  have h0 : bitSet init.relays n = false := bitSet_zero n
  rw [← h0]
  exact firmware.latest_getD (g := fun fw => bitSet fw.relays n) (relay_step n) evs

end Relacon.L4
