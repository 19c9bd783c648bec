import Relacon.L3Protocol.Command

/-!
# What one command can change

Each command touches at most one component of the firmware besides the response.
`exec_gpioAOdr`, `exec_events`, `exec_watchdog` and `exec_success` say which, and
with what value; `processCommand_*` carry them to `AduProtocolProcessCommand`,
for every buffer and every length argument.

* `decode_length`: an over-long string decodes to nothing, so the length test
  decides about the stored response only.
* `exec_response`: whatever was stored, a command leaves it or stores at most
  five digits.
-/
namespace Relacon.L3
open Relacon.Core Relacon.L1 Relacon.L2

/-! ## Components -/

/-- A query reports the index of the current setting, or fails and changes nothing. -/
theorem handlerQuery_cases {n : Nat} (table : Vector UInt32 n) (v : UInt32) (fw : Firmware) :
    (∃ i, v ∈ table.toList ∧ handlerQuery table v fw = (true,
        { fw with response := writeResponseDecimal (UInt16.ofNat i) 1 fw.response })) ∨
      (v ∉ table.toList ∧ handlerQuery table v fw = (false, fw)) := by
  unfold handlerQuery
  cases h : table.toList.findIdx? (· == v) with
  | none =>
    rw [List.findIdx?_eq_none_iff] at h
    exact .inr ⟨fun hv => by simpa using h v hv, rfl⟩
  | some i =>
    obtain ⟨hi, heq, -⟩ := List.findIdx?_eq_some_iff_getElem.mp h
    have hv : table.toList[i] = v := by simpa using heq
    exact .inl ⟨i, hv ▸ List.getElem_mem hi, rfl⟩

theorem handlerQuery_frame {n : Nat} (table : Vector UInt32 n) (v : UInt32) (fw : Firmware) :
    (handlerQuery table v fw).2.gpioAOdr = fw.gpioAOdr ∧
      (handlerQuery table v fw).2.events = fw.events ∧
      (handlerQuery table v fw).2.watchdog = fw.watchdog := by
  rcases handlerQuery_cases table v fw with ⟨i, -, h⟩ | ⟨-, h⟩ <;> rw [h] <;> exact ⟨rfl, rfl, rfl⟩

theorem exec_gpioAOdr (r : Readings) (fw : Firmware) (c : Command) :
    (exec r fw c).2.gpioAOdr = match c with
      | .setRelay n => boardWriteRelays (setBit fw.relays n)
      | .clearRelay n => boardWriteRelays (clearBit fw.relays n)
      | .writeRelayPort v => boardWriteRelays v
      | _ => fw.gpioAOdr := by
  cases c with
  | getDebounce => exact (handlerQuery_frame _ _ fw).1
  | getWatchdog => exact (handlerQuery_frame _ _ fw).1
  | _ => rfl

theorem exec_events (r : Readings) (fw : Firmware) (c : Command) :
    (exec r fw c).2.events = match c with
      | .readAndResetEventCounter n => (eventCounterRead (UInt8.ofNat n) true fw.events).2
      | .setDebounce i => eventCounterDebounceTimeSet (debounceTimeOf i) fw.events
      | _ => fw.events := by
  cases c with
  | getDebounce => exact (handlerQuery_frame _ _ fw).2.1
  | getWatchdog => exact (handlerQuery_frame _ _ fw).2.1
  | readEventCounter n =>
    simp only [exec, readEventCounter, eventCounterRead]
    split <;> rfl
  | readAndResetEventCounter n => simp [exec, readEventCounter]
  | _ => rfl

theorem exec_watchdog (r : Readings) (fw : Firmware) (c : Command) :
    (exec r fw c).2.watchdog = match c with
      | .setWatchdog i => watchdogTimeoutSet (watchdogTimeOf i) fw.watchdog
      | _ => fw.watchdog := by
  cases c with
  | getDebounce => exact (handlerQuery_frame _ _ fw).2.2
  | getWatchdog => exact (handlerQuery_frame _ _ fw).2.2
  | _ => rfl

/-- The setter of the watchdog is the only command that never reports success. -/
theorem exec_success (r : Readings) (fw : Firmware) (c : Command) :
    (exec r fw c).1 = match c with
      | .getDebounce => decide (fw.events.debounceTimeUs ∈ DEBOUNCE_TIMES_US.toList)
      | .getWatchdog => decide (fw.watchdog.watchdogTimeoutPeriodUs ∈ WATCHDOG_TIMES_US.toList)
      | .setWatchdog _ => false
      | _ => true := by
  have hquery : ∀ {n : Nat} (table : Vector UInt32 n) (v : UInt32),
      (handlerQuery table v fw).1 = decide (v ∈ table.toList) := by
    intro n table v
    rcases handlerQuery_cases table v fw with ⟨i, hv, h⟩ | ⟨hv, h⟩ <;> rw [h] <;> simp [hv]
  cases c with
  | getDebounce => exact hquery DEBOUNCE_TIMES_US fw.events.debounceTimeUs
  | getWatchdog => exact hquery WATCHDOG_TIMES_US fw.watchdog.watchdogTimeoutPeriodUs
  | _ => rfl

theorem exec_response (r : Readings) (fw : Firmware) (c : Command) (h : fw.response.Ok) :
    (exec r fw c).2.response.Ok := by
  have hquery : ∀ {n : Nat} (table : Vector UInt32 n) (v : UInt32),
      (handlerQuery table v fw).2.response.Ok := by
    intro n table v
    rcases handlerQuery_cases table v fw with ⟨i, -, hq⟩ | ⟨-, hq⟩ <;> rw [hq]
    · exact ok_writeResponseDecimal _ (by decide) _
    · exact h
  cases c with
  | setRelay n => exact h
  | clearRelay n => exact h
  | writeRelayPort v => exact h
  | readSingleRelay n => exact ok_writeResponseBinary _ (by decide) _
  | readRelayPort => exact ok_writeResponseDecimal _ (by decide) _
  | readInputLine y n => exact ok_writeResponseBinary _ (by decide) _
  | readInputPort y => exact ok_writeResponseBinary _ (by decide) _
  | readInputPortDecimal y => exact ok_writeResponseDecimal _ (by decide) _
  | readInputs => exact ok_writeResponseDecimal _ (by decide) _
  | readEventCounter n => exact ok_writeResponseDecimal _ (by decide) _
  | readAndResetEventCounter n => exact ok_writeResponseDecimal _ (by decide) _
  | getDebounce => exact hquery _ _
  | setDebounce i => exact h
  | getWatchdog => exact hquery _ _
  | setWatchdog i => exact h

/-- A handler that reports failure has written no response. -/
theorem exec_failed_response (r : Readings) (fw : Firmware) (c : Command)
    (h : (exec r fw c).1 = false) : (exec r fw c).2.response = fw.response := by
  have hquery : ∀ {n : Nat} (table : Vector UInt32 n) (v : UInt32),
      (handlerQuery table v fw).1 = false → (handlerQuery table v fw).2.response = fw.response := by
    intro n table v
    rcases handlerQuery_cases table v fw with ⟨i, -, hq⟩ | ⟨-, hq⟩ <;> rw [hq]
    · intro hf; cases hf
    · intro _; rfl
  cases c with
  | getDebounce => exact hquery _ _ h
  | getWatchdog => exact hquery _ _ h
  | setWatchdog i => rfl
  | _ => cases h

/-! ## Over-long commands -/

theorem indexArg_length {n : Nat} {a : List UInt8} {i : Fin n} (h : indexArg n a = some i) :
    a.length = 1 := by
  unfold indexArg at h
  split at h
  · rfl
  · cases h

theorem settingArg_length {n : Nat} {a : List UInt8} {i : Fin n} (h : settingArg n a = some i) :
    a.length = 1 := by
  by_contra hne
  rw [settingArg_ne hne] at h
  cases h

/-- The longest argument string a handler accepts. -/
def HandlerFn.maxArgs : HandlerFn → Nat
  | .writeRelayPort => 3
  | .readSinglePort => 2
  | _ => 1

theorem handler_decode_length {a : List UInt8} {h : HandlerFn} {c : Command}
    (hc : h.decode a = some c) : a.length ≤ h.maxArgs := by
  cases h with
  | setRelay | clearRelay | readSingleRelay | readEventCounter | readAndResetEventCounter =>
    simp only [HandlerFn.decode, Option.map_eq_some_iff] at hc
    obtain ⟨i, hi, -⟩ := hc
    exact (indexArg_length hi).le
  | writeRelayPort =>
    simp only [HandlerFn.decode, byteArg] at hc
    split at hc
    · rename_i h; exact h.1
    · cases hc
  | readRelayPortDecimal | readCombinedPortsDecimal =>
    simp only [HandlerFn.decode] at hc
    split at hc
    · rename_i h; simp [h]
    · cases hc
  | readSinglePort =>
    simp only [HandlerFn.decode] at hc
    split at hc
    · simp [HandlerFn.maxArgs]
    · simp [HandlerFn.maxArgs]
    · cases hc
  | readSinglePortDecimal =>
    simp only [HandlerFn.decode] at hc
    split at hc
    · simp [HandlerFn.maxArgs]
    · cases hc
  | debounceSetting | watchdogSetting =>
    simp only [HandlerFn.decode] at hc
    split at hc
    · rename_i h; simp [h]
    · simp only [Option.map_eq_some_iff] at hc
      obtain ⟨i, hi, -⟩ := hc
      exact (settingArg_length hi).le

/-- No string longer than the longest command decodes to anything. -/
theorem decode_length {s : List UInt8} {c : Command} (h : decode s = some c) :
    s.length ≤ MAX_CMD_STR_SIZE := by
  simp only [decode, Option.bind_eq_some_iff] at h
  obtain ⟨e, he, hc⟩ := h
  have hmem := List.mem_of_find?_eq_some he
  have hlen := handler_decode_length hc
  rw [List.length_drop] at hlen
  have hprefix : ∀ e ∈ ENTRIES, e.commandPrefixLen + e.handler.maxArgs ≤ 5 := by decide
  have := hprefix e hmem
  rw [MAX_CMD_STR_SIZE]
  omega

/-- A string that decodes to a command passes the length test. -/
theorem strnlen_of_decode {buf : List UInt8} {c : Command} (h : decode (cstr buf) = some c)
    (len : Nat) : strnlen buf len ≤ MAX_CMD_STR_SIZE := by
  have hlen := decode_length h
  have hmin := strnlen_eq_min buf len
  rw [strlen] at hmin
  omega

theorem decode_overlong {buf : List UInt8} {len : Nat} (h : strnlen buf len > MAX_CMD_STR_SIZE) :
    decode (cstr buf) = none := by
  cases hd : decode (cstr buf) with
  | none => rfl
  | some c =>
    have := strnlen_of_decode hd len
    omega

/-- The length test cleared the response or left it; the rest is decode and execute. -/
def prepare (buf : List UInt8) (len : Nat) (fw : Firmware) : Firmware :=
  if strnlen buf len > MAX_CMD_STR_SIZE then fw else { fw with response := fw.response.clear }

theorem prepare_frame (buf : List UInt8) (len : Nat) (fw : Firmware) :
    (prepare buf len fw).gpioAOdr = fw.gpioAOdr ∧ (prepare buf len fw).events = fw.events ∧
      (prepare buf len fw).watchdog = fw.watchdog := by
  unfold prepare
  split <;> exact ⟨rfl, rfl, rfl⟩

theorem processCommand_exec (r : Readings) (buf : List UInt8) (len : Nat) (fw : Firmware) :
    aduProtocolProcessCommand r buf len fw =
      let res := execOpt r (prepare buf len fw) (decode (cstr buf))
      (res.1, { res.2 with watchdog := watchdogKick r res.2.watchdog }) := by
  rw [processCommand_eq]
  unfold prepare
  by_cases hlen : strnlen buf len > MAX_CMD_STR_SIZE
  · have hnone := decode_overlong hlen
    simp only [hlen, if_true, hnone, execOpt]
  · simp only [hlen, if_false]

/-! ## `AduProtocolProcessCommand`, component by component -/

section
variable (r : Readings) (buf : List UInt8) (len : Nat) (fw : Firmware)

theorem processCommand_success : (aduProtocolProcessCommand r buf len fw).1 =
    match decode (cstr buf) with
    | some c => (exec r fw c).1
    | none => false := by
  obtain ⟨-, hev, hwd⟩ := prepare_frame buf len fw
  rw [processCommand_exec]
  cases decode (cstr buf) with
  | none => rfl
  | some c => simp only [execOpt, exec_success, hev, hwd]

theorem processCommand_gpioAOdr : (aduProtocolProcessCommand r buf len fw).2.gpioAOdr =
    match decode (cstr buf) with
    | some c => (exec r fw c).2.gpioAOdr
    | none => fw.gpioAOdr := by
  obtain ⟨hodr, -, -⟩ := prepare_frame buf len fw
  rw [processCommand_exec]
  cases decode (cstr buf) with
  | none => exact hodr
  | some c => simp only [execOpt, exec_gpioAOdr, Firmware.relays, hodr]

theorem processCommand_events : (aduProtocolProcessCommand r buf len fw).2.events =
    match decode (cstr buf) with
    | some c => (exec r fw c).2.events
    | none => fw.events := by
  obtain ⟨-, hev, -⟩ := prepare_frame buf len fw
  rw [processCommand_exec]
  cases decode (cstr buf) with
  | none => exact hev
  | some c => simp only [execOpt, exec_events, hev]

theorem processCommand_watchdog : (aduProtocolProcessCommand r buf len fw).2.watchdog =
    watchdogKick r (match decode (cstr buf) with
    | some c => (exec r fw c).2.watchdog
    | none => fw.watchdog) := by
  obtain ⟨-, -, hwd⟩ := prepare_frame buf len fw
  rw [processCommand_exec]
  cases decode (cstr buf) with
  | none => simp only [execOpt, hwd]
  | some c => simp only [execOpt, exec_watchdog, hwd]

/-- A recognised command leaves the response of its execution. -/
theorem processCommand_response_some {c : Command} (h : decode (cstr buf) = some c) :
    (aduProtocolProcessCommand r buf len fw).2.response =
      (exec r (prepare buf len fw) c).2.response := by
  rw [processCommand_exec, h]
  rfl

theorem processCommand_response_failed (h : (aduProtocolProcessCommand r buf len fw).1 = false) :
    (aduProtocolProcessCommand r buf len fw).2.response = (prepare buf len fw).response := by
  rw [processCommand_exec] at h ⊢
  cases hd : decode (cstr buf) with
  | none => rfl
  | some c =>
    rw [hd] at h
    exact exec_failed_response r _ c h

theorem processCommand_response (h : fw.response.Ok) :
    (aduProtocolProcessCommand r buf len fw).2.response.Ok := by
  have hprep : (prepare buf len fw).response.Ok := by
    unfold prepare
    split
    · exact h
    · exact fw.response.ok_clear
  rw [processCommand_exec]
  cases decode (cstr buf) with
  | none => exact hprep
  | some c => exact exec_response r _ c hprep

end

end Relacon.L3
