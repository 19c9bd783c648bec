import Relacon.L3Protocol.Grammar
import Relacon.L5Usb.Hid

/-!
# Stale bytes behind a received report

A receive buffer is reused, so behind the received bytes it holds what earlier
transfers left there. `Oblivious`: the effects of a report do not depend on that,
in any reachable state. `oblivious_iff` says for which reports this is so.

The command processor gets the received length, but uses it only to bound the
length test; the prefix search and the handlers read on to the next NUL. So a
report is safe if its payload has a NUL, is too long for a command, or is not the
beginning of a command string (`SelfContained`). An empty transfer on the OUT
endpoint is never safe: its report ID is read from a byte that was not received.
-/
namespace Relacon.L5
open Relacon.Core Relacon.L1 Relacon.L2 Relacon.L3 Relacon.L4

/-- What a report changes. -/
structure Effects where
  relayPort : UInt16
  events : EventCounters
  watchdog : Watchdog
  response : List UInt8
  queued : Option InReport
  deriving DecidableEq, Repr

def effects (res : Option InReport × Firmware) : Effects :=
  ⟨res.2.gpioAOdr, res.2.events, res.2.watchdog, res.2.response.bytes, res.1⟩

/-- The effects of a report with the bytes `received` do not depend on the memory
behind them, nor on what `rspBuf` holds when the call starts. -/
def Oblivious (reportId : UInt8) (reportType : HidReportType) (received : List UInt8) : Prop :=
  ∀ fw, firmware.Reachable fw → ∀ (r : Readings) (stale stale' : List UInt8)
    (rspBuf rspBuf' : Vector UInt8 CFG_TUD_HID_EP_BUFSIZE),
    effects (tudHidSetReportCb r reportId reportType (received ++ stale)
      (UInt16.ofNat received.length) rspBuf fw) =
    effects (tudHidSetReportCb r reportId reportType (received ++ stale')
      (UInt16.ofNat received.length) rspBuf' fw)

/-- Some string that the processor accepts begins with `p`. -/
def BeginsCommand (p : List UInt8) : Prop :=
  ∃ ext, (∀ x ∈ ext, x ≠ 0) ∧ (inGrammar (p ++ ext) = true ∨ Stray (p ++ ext))

/-- The payload has a NUL, is too long for a command, or does not begin one. -/
def SelfContained (p : List UInt8) : Prop :=
  0 ∈ p ∨ MAX_CMD_STR_SIZE < p.length ∨ ¬ BeginsCommand p

/-- Every payload that reaches the processor is self-contained, and the report ID was received. -/
def Bounded (reportId : UInt8) : HidReportType → List UInt8 → Prop
  | .invalid, [] => False
  | .invalid, id :: p => id = REPORT_ID_ADU_CMD_RSP → SelfContained p
  | .output, p => reportId = REPORT_ID_ADU_CMD_RSP → SelfContained p
  | _, _ => True

/-! ## Self-contained payloads -/

section
variable {p : List UInt8}

theorem decode_stale (h : SelfContained p) (stale stale' : List UInt8) :
    decode (cstr (p ++ stale)) = decode (cstr (p ++ stale')) := by
  by_cases h0 : 0 ∈ p
  · rw [cstr_append_of_mem h0, cstr_append_of_mem h0]
  · have hp : ∀ c ∈ p, c ≠ 0 := fun c hc hz => h0 (hz ▸ hc)
    have hnone : ∀ m, decode (cstr (p ++ m)) = none := by
      intro m
      cases hd : decode (cstr (p ++ m)) with
      | none => rfl
      | some c =>
        exfalso
        rw [cstr_append hp] at hd
        rcases h with hz | hlong | hno
        · exact h0 hz
        · have := decode_length hd
          rw [List.length_append] at this
          omega
        · exact hno ⟨cstr m, cstr_no_nul m, (decode_isSome_iff _).mp ⟨c, hd⟩⟩
    rw [hnone, hnone]

theorem processCommand_stale (h : SelfContained p) (r : Readings) (fw : Firmware)
    (stale stale' : List UInt8) :
    aduProtocolProcessCommand r (p ++ stale) p.length fw =
      aduProtocolProcessCommand r (p ++ stale') p.length fw := by
  have hlen : ∀ m, strnlen (p ++ m) p.length = strnlen p p.length := by
    intro m
    rw [strnlen, strnlen, List.take_left, List.take_length]
  rw [processCommand_eq, processCommand_eq, hlen, hlen, decode_stale h stale stale']

theorem deliverCommand_stale (h : SelfContained p) (r : Readings) {fw : Firmware} (hok : FwOk fw)
    (stale stale' : List UInt8) (rspBuf rspBuf' : Vector UInt8 CFG_TUD_HID_EP_BUFSIZE) :
    deliverCommand r (p ++ stale) p.length rspBuf fw =
      deliverCommand r (p ++ stale') p.length rspBuf' fw := by
  have hresp := processCommand_response r (p ++ stale') p.length fw hok.response
  simp only [deliverCommand, processCommand_stale h r fw stale stale', sendResponse_eq hresp]

end

/-! ## Payloads that begin a command -/

/-- A state in which every setting and every relay differs from the initial one. -/
def busy : Firmware := firmware.run
  [⟨⟨0, 0, 0⟩, .processCommand (ascii ['M', 'K', '2', '5', '5']) 5⟩,
   ⟨⟨0, 0, 0⟩, .processCommand (ascii ['D', 'B', '0']) 3⟩,
   ⟨⟨0, 0, 0⟩, .processCommand (ascii ['W', 'D', '1']) 3⟩]

theorem busy_reachable : firmware.Reachable busy := firmware.reachable_run _

theorem busy_settings : busy.gpioAOdr = 255 ∧ busy.events.debounceTimeUs = 10000 ∧
    busy.watchdog.watchdogTimeoutPeriodUs = 1000000 := by
  decide +kernel

/-- The state `fw'` shows an effect of a command on `fw`. -/
def Shows (fw fw' : Firmware) : Prop :=
  fw'.gpioAOdr ≠ fw.gpioAOdr ∨ fw'.events ≠ fw.events ∨
    fw'.watchdog.watchdogTimeoutPeriodUs ≠ fw.watchdog.watchdogTimeoutPeriodUs ∨
    fw'.response.bytes ≠ []

theorem writeResponseDecimal_ne (v : UInt16) {d : Nat} (h0 : 0 < d) (hd : d ≤ 8) (r : Response) :
    (writeResponseDecimal v d r).bytes ≠ [] := by
  rw [bytes_writeResponseDecimal v hd]
  exact List.ne_nil_of_length_pos (by simpa using h0)

theorem writeResponseBinary_ne (v : UInt8) {d : Nat} (h0 : 0 < d) (hd : d ≤ 8) (r : Response) :
    (writeResponseBinary v d r).bytes ≠ [] := by
  rw [bytes_writeResponseBinary v hd]
  exact List.ne_nil_of_length_pos (by simpa using h0)

theorem handlerQuery_ne {n : Nat} {table : Vector UInt32 n} {v : UInt32} (h : v ∈ table.toList)
    (fw : Firmware) : (handlerQuery table v fw).2.response.bytes ≠ [] := by
  rcases handlerQuery_cases table v fw with ⟨i, -, hq⟩ | ⟨hno, -⟩
  · rw [hq]
    exact writeResponseDecimal_ne _ (by decide) (by decide) _
  · exact (hno h).elim

/-- Every command shows in the initial state or in the busy one. -/
theorem visible (r : Readings) (c : Command) : ∃ fw, firmware.Reachable fw ∧
    ∀ response : Response, Shows fw (exec r { fw with response := response } c).2 := by
  have hbusy := busy_settings
  have hinit : firmware.Reachable init := firmware.reachable_run []
  have hok := ok_reachable hinit
  cases c with
  | setRelay n =>
    have key : ∀ n : Fin 8, boardWriteRelays (setBit init.relays n) ≠ init.gpioAOdr := by
      decide +kernel
    exact ⟨init, hinit, fun _ => .inl (key n)⟩
  | clearRelay n =>
    have key : ∀ n : Fin 8, boardWriteRelays (clearBit (boardReadRelays 255) n) ≠ 255 := by
      decide +kernel
    refine ⟨busy, busy_reachable, fun _ => .inl ?_⟩
    simp only [exec, Firmware.writeRelays, Firmware.relays, hbusy.1]
    exact key n
  | writeRelayPort v =>
    by_cases hv : v = 0
    · refine ⟨busy, busy_reachable, fun _ => .inl ?_⟩
      simp only [exec, Firmware.writeRelays, hbusy.1, hv]
      decide
    · refine ⟨init, hinit, fun _ => .inl fun h => hv ?_⟩
      rw [← boardReadRelays_write v]
      exact congrArg boardReadRelays h
  | readSingleRelay n | readInputLine y n | readInputPort y =>
    exact ⟨init, hinit, fun _ => .inr (.inr (.inr (writeResponseBinary_ne _ (by decide) (by decide) _)))⟩
  | readRelayPort | readInputPortDecimal y | readInputs | readEventCounter n
  | readAndResetEventCounter n =>
    exact ⟨init, hinit, fun _ => .inr (.inr (.inr (writeResponseDecimal_ne _ (by decide) (by decide) _)))⟩
  | getDebounce =>
    exact ⟨init, hinit, fun _ => .inr (.inr (.inr (handlerQuery_ne hok.debounce _)))⟩
  | getWatchdog =>
    exact ⟨init, hinit, fun _ => .inr (.inr (.inr (handlerQuery_ne hok.period _)))⟩
  | setDebounce i =>
    by_cases hi : debounceTimeOf i = 10000
    · refine ⟨init, hinit, fun _ => .inr (.inl fun h => ?_)⟩
      have := congrArg EventCounters.debounceTimeUs h
      rw [show init.events.debounceTimeUs = 1000 from rfl] at this
      exact absurd (hi.symm.trans this) (by decide)
    · refine ⟨busy, busy_reachable, fun _ => .inr (.inl fun h => hi ?_)⟩
      exact (congrArg EventCounters.debounceTimeUs h).trans hbusy.2.1
  | setWatchdog i =>
    by_cases hi : watchdogTimeOf i = 1000000
    · refine ⟨init, hinit, fun _ => .inr (.inr (.inl fun h => ?_))⟩
      exact absurd (hi.symm.trans h) (by decide)
    · exact ⟨busy, busy_reachable, fun _ => .inr (.inr (.inl fun h => hi (h.trans hbusy.2.2)))⟩

/-- A payload that begins a command can be completed to it by stale bytes, and spoilt by others. -/
theorem deliverCommand_differs {p : List UInt8} (h : ¬ SelfContained p) (r : Readings)
    (rspBuf : Vector UInt8 CFG_TUD_HID_EP_BUFSIZE) : ∃ fw, firmware.Reachable fw ∧
      ∃ stale stale', effects (deliverCommand r (p ++ stale) p.length rspBuf fw) ≠
        effects (deliverCommand r (p ++ stale') p.length rspBuf fw) := by
  simp only [SelfContained, not_or, not_not] at h
  obtain ⟨h0, hlen, ext, hext, hacc⟩ := h
  obtain ⟨c, hc⟩ := (decode_isSome_iff _).mpr hacc
  obtain ⟨fw, hreach, hshow⟩ := visible r c
  have hp : ∀ x ∈ p, x ≠ 0 := fun x hx hz => h0 (hz ▸ hx)
  have hdecode : decode (cstr (p ++ (ext ++ [0]))) = some c := by
    rw [cstr_append hp, cstr_append_nul hext, hc]
  have hspoilt : decode (cstr (p ++ List.replicate 6 1)) = none := by
    cases hd : decode (cstr (p ++ List.replicate 6 1)) with
    | none => rfl
    | some d =>
      have := decode_length hd
      rw [cstr_append hp, cstr_of_no_nul (by simp), List.length_append, MAX_CMD_STR_SIZE] at this
      simp at this
  have hshort : ∀ m, ¬ strnlen (p ++ m) p.length > MAX_CMD_STR_SIZE := by
    intro m
    have := strnlen_eq_min (p ++ m) p.length
    omega
  refine ⟨fw, hreach, ext ++ [0], List.replicate 6 1, fun heq => ?_⟩
  simp only [effects, deliverCommand, processCommand_eq, hshort, if_false, hdecode, hspoilt, execOpt,
    Effects.mk.injEq] at heq
  obtain ⟨hodr, hev, hwd, hresp, -⟩ := heq
  rcases hshow fw.response.clear with hs | hs | hs | hs
  · exact hs hodr
  · exact hs hev
  · exact hs (by simpa using congrArg Watchdog.watchdogTimeoutPeriodUs hwd)
  · exact hs hresp

/-- The processor, given the payload `p`, is indifferent to stale bytes if `p` is self-contained. -/
theorem deliverCommand_oblivious_iff (p : List UInt8) :
    (∀ fw, firmware.Reachable fw → ∀ (r : Readings) (stale stale' : List UInt8)
      (rspBuf rspBuf' : Vector UInt8 CFG_TUD_HID_EP_BUFSIZE),
      effects (deliverCommand r (p ++ stale) p.length rspBuf fw) =
        effects (deliverCommand r (p ++ stale') p.length rspBuf' fw)) ↔ SelfContained p := by
  refine ⟨fun h => ?_, fun hp => ?_⟩
  · by_contra hp
    obtain ⟨fw, hreach, stale, stale', hne⟩ :=
      deliverCommand_differs hp ⟨0, 0, 0⟩ (Vector.replicate _ 0)
    exact hne (h fw hreach _ stale stale' _ _)
  · intro fw hreach r stale stale' rspBuf rspBuf'
    rw [deliverCommand_stale hp r (ok_reachable hreach) stale stale' rspBuf rspBuf']

/-! ## Reports -/

/-- An empty transfer on the OUT endpoint takes its report ID and its command from stale bytes. -/
theorem not_oblivious_empty (reportId : UInt8) : ¬ Oblivious reportId .invalid [] := by
  intro h
  have heq := h init (firmware.reachable_run []) ⟨0, 0, 0⟩ (1 :: ascii ['S', 'K', '0']) []
    (Vector.replicate _ 0) (Vector.replicate _ 0)
  have hid : ∀ b n, commandOf reportId .invalid b n = commandOf 0 .invalid b n := fun _ _ => rfl
  rw [setReport_eq, setReport_eq, hid, hid] at heq
  exact absurd (congrArg Effects.relayPort heq) (by decide +kernel)

/-- **The effects depend on the received bytes only**, exactly for the bounded reports. -/
theorem oblivious_iff (reportId : UInt8) (reportType : HidReportType) (received : List UInt8)
    (hlen : received.length < 65536) :
    Oblivious reportId reportType received ↔ Bounded reportId reportType received := by
  have hsize : (UInt16.ofNat received.length).toNat = received.length := by
    rw [UInt16.toNat_ofNat']
    omega
  unfold Oblivious
  simp only [setReport_eq]
  cases reportType with
  | invalid =>
    cases received with
    | nil => exact iff_of_false (by simpa [Oblivious, setReport_eq] using not_oblivious_empty reportId) id
    | cons id p =>
      have hp : (UInt16.ofNat (id :: p).length - 1).toNat = p.length := by
        rw [UInt16.toNat_sub_of_le, hsize]
        · rfl
        · rw [UInt16.le_iff_toNat_le, hsize]
          exact Nat.succ_le_succ (Nat.zero_le _)
      rw [Bounded, ← deliverCommand_oblivious_iff p]
      by_cases hid : id = REPORT_ID_ADU_CMD_RSP
      · simp only [commandOf, List.cons_append, deref_cons, hid, if_true, List.tail_cons, true_imp_iff]
        rw [← hid, hp]
      · simp [commandOf, hid]
  | output =>
    rw [Bounded, ← deliverCommand_oblivious_iff received]
    by_cases hid : reportId = REPORT_ID_ADU_CMD_RSP
    · simp [commandOf, hid, hsize]
    · simp [commandOf, hid]
  | input => simp [commandOf, Bounded]
  | feature => simp [commandOf, Bounded]

theorem oblivious_terminated : Oblivious 0 .invalid (1 :: ascii ['S', 'K', '0'] ++ [0]) :=
  (oblivious_iff 0 .invalid _ (by decide)).mpr fun _ => .inl (by decide)

/-- `SK0` without a NUL closes relay 0, or not, depending on the byte behind it. -/
theorem oblivious_fails : ¬ ∀ (reportId : UInt8) (reportType : HidReportType)
    (received : List UInt8), received.length < 65536 → Oblivious reportId reportType received := by
  intro h
  have heq := h 0 .invalid (1 :: ascii ['S', 'K', '0']) (by decide) init
    (firmware.reachable_run []) ⟨0, 0, 0⟩ [0] (ascii ['9'])
    (Vector.replicate _ 0) (Vector.replicate _ 0)
  exact absurd (congrArg Effects.relayPort heq) (by decide +kernel)

end Relacon.L5
