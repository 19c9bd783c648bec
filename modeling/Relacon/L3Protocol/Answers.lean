import Relacon.L3Protocol.Effects

/-!
# What each command answers

`Command.answer` is the response of a command as a function of the readings and
of the state before it: a fixed-width numeral, or nothing. It does not mention
the response buffer; `processCommand_answer` says that the buffer holds exactly
the answer after every call that recognises a command.

A call that recognises none leaves an empty response, unless the string is
over-long: then the stored response is what it was (`processCommand_unanswered`).
-/
namespace Relacon.L3
open Relacon.Core Relacon.L1 Relacon.L2

/-- The index of the current setting, as one digit. -/
def queryAnswer {n : Nat} (table : Vector UInt32 n) (current : UInt32) : List UInt8 :=
  match table.toList.findIdx? (· == current) with
  | some i => numeral 10 1 i
  | none => []

def Command.answer (r : Readings) (fw : Firmware) : Command → List UInt8
  | .setRelay _ | .clearRelay _ | .writeRelayPort _ | .setDebounce _ | .setWatchdog _ => []
  | .readSingleRelay n => numeral 2 1 (bitByte (bitSet fw.relays n)).toNat
  | .readRelayPort => numeral 10 3 fw.relays.toNat
  | .readInputLine y n => numeral 2 1 (bitByte (bitSet (y.value r) n)).toNat
  | .readInputPort y => numeral 2 4 (y.value r).toNat
  | .readInputPortDecimal y => numeral 10 2 (y.value r).toNat
  | .readInputs => numeral 10 3 (boardReadDigitalInputs r).toNat
  | .readEventCounter n => numeral 10 5 (fw.events.chan n).count.toNat
  | .readAndResetEventCounter n => numeral 10 5 (fw.events.chan n).count.toNat
  | .getDebounce => queryAnswer DEBOUNCE_TIMES_US fw.events.debounceTimeUs
  | .getWatchdog => queryAnswer WATCHDOG_TIMES_US fw.watchdog.watchdogTimeoutPeriodUs

/-- The answer to the command string `s`. -/
def answerTo (r : Readings) (fw : Firmware) (s : List UInt8) : List UInt8 :=
  match decode s with
  | some c => c.answer r fw
  | none => []

theorem queryAnswer_debounce (i : Fin 3) :
    queryAnswer DEBOUNCE_TIMES_US (debounceTimeOf i) = [asciiDigit i] := by
  revert i; decide

theorem queryAnswer_watchdog (i : Fin 4) :
    queryAnswer WATCHDOG_TIMES_US (watchdogTimeOf i) = [asciiDigit i] := by
  revert i; decide

theorem numeral_bitByte (b : Bool) :
    numeral 2 1 (bitByte b).toNat = [if b then '1'.toUInt8 else '0'.toUInt8] := by
  cases b <;> rfl

/-! ## Executing a command stores its answer -/

theorem readEventCounter_bytes (reset : Bool) (n : Fin 8) (fw : Firmware) :
    (readEventCounter reset (UInt32.ofNat n) fw).response.bytes =
      numeral 10 5 (fw.events.chan n).count.toNat := by
  have hn : (UInt32.ofNat n.val).toUInt8.toNat = n.val := by
    rw [UInt32.toNat_toUInt8, UInt32.toNat_ofNat']
    omega
  simp only [readEventCounter, eventCounterRead_count hn]
  exact bytes_writeResponseDecimal _ (by decide) _

theorem handlerQuery_bytes {n : Nat} (hn : n < 2 ^ 16) (table : Vector UInt32 n) (v : UInt32)
    {fw : Firmware} (h : fw.response.bytes = []) :
    (handlerQuery table v fw).2.response.bytes = queryAnswer table v := by
  unfold handlerQuery queryAnswer
  cases hi : table.toList.findIdx? (· == v) with
  | none => exact h
  | some i =>
    obtain ⟨hlt, -, -⟩ := List.findIdx?_eq_some_iff_getElem.mp hi
    rw [Vector.length_toList] at hlt
    have hnat : (UInt16.ofNat i).toNat = i := by
      rw [UInt16.toNat_ofNat']
      omega
    have hbytes := bytes_writeResponseDecimal (UInt16.ofNat i) (show 1 ≤ 8 by decide) fw.response
    rwa [hnat] at hbytes

theorem exec_answer (r : Readings) (fw : Firmware) (h : fw.response.bytes = []) (c : Command) :
    (exec r fw c).2.response.bytes = c.answer r fw := by
  cases c with
  | setRelay n | clearRelay n | writeRelayPort v | setDebounce i | setWatchdog i => exact h
  | readSingleRelay n => exact bytes_writeResponseBinary _ (by decide) _
  | readRelayPort => exact bytes_writeResponseDecimal _ (by decide) _
  | readInputLine y n => exact bytes_writeResponseBinary _ (by decide) _
  | readInputPort y => exact bytes_writeResponseBinary _ (by decide) _
  | readInputPortDecimal y => exact bytes_writeResponseDecimal _ (by decide) _
  | readInputs => exact bytes_writeResponseDecimal _ (by decide) _
  | readEventCounter n => exact readEventCounter_bytes false n fw
  | readAndResetEventCounter n => exact readEventCounter_bytes true n fw
  | getDebounce => exact handlerQuery_bytes (by decide) _ _ h
  | getWatchdog => exact handlerQuery_bytes (by decide) _ _ h

/-- An answer depends on the state without its response only. -/
theorem answer_clear (r : Readings) (fw : Firmware) (response : Response) (c : Command) :
    c.answer r { fw with response := response } = c.answer r fw := by
  cases c <;> rfl

/-! ## `AduProtocolProcessCommand` -/

section
variable (r : Readings) (buf : List UInt8) (len : Nat) (fw : Firmware)

theorem processCommand_answer {c : Command} (h : decode (cstr buf) = some c) :
    (aduProtocolProcessCommand r buf len fw).2.response.bytes = c.answer r fw := by
  have hshort := strnlen_of_decode h len
  rw [processCommand_response_some r buf len fw h, prepare, if_neg (by omega),
    exec_answer r { fw with response := fw.response.clear } rfl, answer_clear]

/-- A command that succeeds responds with its answer. -/
theorem responds {c : Command} (h : decode (cstr buf) = some c) (hs : (exec r fw c).1 = true) :
    (aduProtocolProcessCommand r buf len fw).1 = true ∧
      (aduProtocolProcessCommand r buf len fw).2.response.bytes = c.answer r fw := by
  refine ⟨?_, processCommand_answer r buf len fw h⟩
  rw [processCommand_success, h]
  exact hs

theorem processCommand_succeeded (h : (aduProtocolProcessCommand r buf len fw).1 = true) :
    (aduProtocolProcessCommand r buf len fw).2.response.bytes = answerTo r fw (cstr buf) := by
  rw [processCommand_success] at h
  unfold answerTo
  cases hd : decode (cstr buf) with
  | none => rw [hd] at h; cases h
  | some c => exact processCommand_answer r buf len fw hd

theorem processCommand_unanswered (h : decode (cstr buf) = none) :
    (aduProtocolProcessCommand r buf len fw).2.response.bytes =
      if strnlen buf len > MAX_CMD_STR_SIZE then fw.response.bytes else [] := by
  rw [processCommand_exec, h]
  simp only [execOpt, prepare]
  split <;> rfl

/-- After every call the response is its own answer, or an over-long string left the old one. -/
theorem processCommand_bytes : (aduProtocolProcessCommand r buf len fw).2.response.bytes =
    if strnlen buf len > MAX_CMD_STR_SIZE then fw.response.bytes
    else answerTo r fw (cstr buf) := by
  unfold answerTo
  cases h : decode (cstr buf) with
  | none => exact processCommand_unanswered r buf len fw h
  | some c =>
    have hshort := strnlen_of_decode h len
    rw [processCommand_answer r buf len fw h, if_neg (by omega)]

end

end Relacon.L3
