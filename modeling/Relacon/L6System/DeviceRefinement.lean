import Relacon.L5Usb.InReports
import Relacon.L6System.Device
import Relacon.L6System.MainLoop

/-!
# The firmware implements the device

`deviceEv` reads off a step of the firmware what happens to the abstract device;
`Implements` relates the two states: relay bits, debouncing automata on timer
readings, settings stored as times, and a last kick that is the reading of the
last command while a timeout is in force.

`device_refined`: in every interleaving of USB callbacks and polls that is paced,
the firmware shows what the device shows, step by step: the relays, and the input
report with the answer to the command, if there is one. With
`paced_of_loopTimed` this holds of the main loop.
-/
namespace Relacon.L6
open Relacon.Core Relacon.L1 Relacon.L2 Relacon.L3 Relacon.L4 Relacon.L5

/-! ## What a step is to the device -/

def Timed.inputs {α : Type} (e : Timed α) : Fin 8 → Bool :=
  fun i => bitSet (boardReadDigitalInputs e.readings) i

def deviceEv (e : Timed UsbAction) : DeviceEv :=
  match e.action with
  | .setReport reportId reportType buffer bufsize _ =>
    match commandOf reportId reportType buffer bufsize with
    | some (buf, _) => .command e.time e.inputs (decode (cstr buf))
    | none => .idle
  | .getReport _ _ _ _ => .idle
  | .eventCounterTask => .sample e.time e.inputs
  | .watchdogTask => .check e.time

/-- The input report that carries an answer. -/
def encodeReply (reply : Command × Nat) : InReport where
  reportId := REPORT_ID_ADU_CMD_RSP
  report := padded 8 (numeral (replyFormat reply.1).1 (replyFormat reply.1).2 reply.2)

/-- What a step shows: the relays after it, and the report it queues. -/
structure Shown where
  relays : Fin 8 → Bool
  queued : Option InReport

def shows (fw : Firmware) (e : Timed UsbAction) : Shown where
  relays n := bitSet (usbStep fw e.usbStep).2.relays n
  queued := (usbStep fw e.usbStep).1

def Device.shows (d : Device) (e : DeviceEv) : Shown where
  relays := (d.step e).relays
  queued := (d.reply e).map encodeReply

/-! ## The relation -/

/-- A line as the exact automaton of its channel. -/
def Line.channel (d : Nat) (l : Line) : Channel := ⟨l.phase, l.edge, UInt16.ofNat l.events, d⟩

structure Implements (p : Pace) (fw : Firmware) (d : Device) : Prop where
  relays : ∀ n : Fin 8, bitSet fw.relays n = d.relays n
  lines : ∀ n, Tracks 10000 p.sample (fw.events.chan n) ((d.lines n).channel (debounceUs d.debounce))
  debounce : fw.events.debounceTimeUs = debounceTimeOf d.debounce
  watchdog : fw.watchdog.watchdogTimeoutPeriodUs = watchdogTimeOf d.watchdog
  timing : Timing ⟨p.now, p.check⟩ (some d.lastCommand) fw.watchdog
  response : fw.response.Ok
  order : ∀ q ∈ p.sample, q ≤ p.now

theorem debounceTimeOf_toNat (i : Fin 3) : (debounceTimeOf i).toNat = debounceUs i := by
  revert i; decide

theorem watchdogTimeOf_toNat (i : Fin 4) : (watchdogTimeOf i).toNat = timeoutUs i := by
  revert i; decide

theorem debounceUs_le (i : Fin 3) : debounceUs i ≤ 10000 := by
  revert i; decide

theorem sample_channel (d t : Nat) (x : Bool) (l : Line) :
    (l.sample d t x).channel d = (l.channel d).poll t x := by
  have hsucc : UInt16.ofNat (l.events + 1) = UInt16.ofNat l.events + 1 := UInt16.ofNat_add _ _
  unfold Line.sample Line.channel Channel.poll
  cases hp : l.phase with
  | waitingForRisingEdge => cases x <;> simp [hp, hsucc]
  | settling => by_cases he : d < t - l.edge <;> simp [he, hp]
  | waitingForFallingEdge => cases x <;> simp [hp]

section
variable {p : Pace} {fw : Firmware} {d : Device}

theorem Implements.ok (h : Implements p fw d) : FwOk fw where
  debounce := h.debounce ▸ debounceTimeOf_mem _
  period := h.watchdog ▸ watchdogTimeOf_mem _
  response := h.response

theorem Implements.count (h : Implements p fw d) (n : Fin 8) :
    (fw.events.chan n).count.toNat = (d.lines n).events % 2 ^ 16 := by
  rw [(h.lines n).count]
  exact UInt16.toNat_ofNat'

theorem Implements.debounceUs_eq (h : Implements p fw d) :
    fw.events.debounceTimeUs.toNat = debounceUs d.debounce := by
  rw [h.debounce, debounceTimeOf_toNat]

theorem Implements.timeoutUs_eq (h : Implements p fw d) :
    fw.watchdog.watchdogTimeoutPeriodUs.toNat = timeoutUs d.watchdog := by
  rw [h.watchdog, watchdogTimeOf_toNat]

/-- The debounce time is not part of what a channel tracks. -/
theorem tracks_debounce {B a b : Nat} {last : Option Nat} {c : EventCounter} {l : Line}
    (h : Tracks B last c (l.channel a)) : Tracks B last c (l.channel b) :=
  ⟨h.state, h.count, h.recent⟩

/-! ## Commands -/

section
variable (h : Implements p fw d) (r : Readings) (buf : List UInt8) (len t : Nat) (ins : Fin 8 → Bool)
include h

theorem command_relays (n : Fin 8) : bitSet (step fw ⟨r, .processCommand buf len⟩).relays n =
    (d.step (.command t ins (decode (cstr buf)))).relays n := by
  have hodr := step_gpioAOdr fw ⟨r, .processCommand buf len⟩
  have hn := h.relays n
  simp only at hodr
  rw [Firmware.relays, hodr]
  cases decode (cstr buf) with
  | none => exact hn
  | some c =>
    cases c with
    | setRelay m =>
      simp only [boardReadRelays_write, bitSet_setBit _ m.isLt, hn]
      by_cases hnm : n = m
      · simp [Device.step, Device.execute, hnm]
      · have hval : n.val ≠ m.val := fun he => hnm (Fin.ext he)
        simp [Device.step, Device.execute, hnm, hval]
    | clearRelay m =>
      simp only [boardReadRelays_write, bitSet_clearBit _ m.isLt n.isLt, hn]
      by_cases hnm : n = m
      · simp [Device.step, Device.execute, hnm]
      · have hval : n.val ≠ m.val := fun he => hnm (Fin.ext he)
        simp [Device.step, Device.execute, hnm, hval]
    | writeRelayPort v =>
      simp only [boardReadRelays_write, bitSet_eq_testBit]
      rfl
    | _ => exact hn

theorem command_lines (n : Fin 8) :
    let d' := d.step (.command t ins (decode (cstr buf)))
    Tracks 10000 p.sample ((step fw ⟨r, .processCommand buf len⟩).events.chan n)
      ((d'.lines n).channel (debounceUs d'.debounce)) := by
  intro d'
  have hchan := step_chan fw ⟨r, .processCommand buf len⟩ n
  have hn := h.lines n
  simp only at hchan
  rw [hchan]
  by_cases hreset : decode (cstr buf) = some (.readAndResetEventCounter n)
  · have hline : d'.lines n = { d.lines n with events := 0 } := by
      simp [d', hreset, Device.step, Device.execute]
    rw [if_pos hreset, hline]
    exact ⟨hn.state, rfl, hn.recent⟩
  · have hline : d'.lines n = d.lines n := by
      simp only [d', Device.step]
      cases hd : decode (cstr buf) with
      | none => rfl
      | some c =>
        cases c with
        | readAndResetEventCounter m =>
          have hne : n ≠ m := fun he => hreset (by rw [hd, he])
          simp [Device.execute, Function.update_of_ne hne]
        | _ => rfl
    rw [if_neg hreset, hline]
    exact tracks_debounce hn

theorem command_debounce : (step fw ⟨r, .processCommand buf len⟩).events.debounceTimeUs =
    debounceTimeOf (d.step (.command t ins (decode (cstr buf)))).debounce := by
  rw [step_debounce]
  simp only [Device.step]
  cases decode (cstr buf) with
  | none => exact h.debounce
  | some c => cases c <;> first | exact h.debounce | rfl

theorem command_watchdog : (step fw ⟨r, .processCommand buf len⟩).watchdog.watchdogTimeoutPeriodUs =
    watchdogTimeOf (d.step (.command t ins (decode (cstr buf)))).watchdog := by
  rw [step_period]
  simp only [Device.step]
  cases decode (cstr buf) with
  | none => exact h.watchdog
  | some c => cases c <;> first | exact h.watchdog | rfl

end

theorem implements_command (h : Implements p fw d) {t : Nat} (ht : p.now ≤ t) (a b : UInt32)
    (buf : List UInt8) (len : Nat) (ins : Fin 8 → Bool) :
    Implements { p with now := t } (step fw ⟨⟨reading t, a, b⟩, .processCommand buf len⟩)
      (d.step (.command t ins (decode (cstr buf)))) where
  relays := command_relays h _ buf len t ins
  lines := command_lines h _ buf len t ins
  debounce := command_debounce h _ buf len t ins
  watchdog := command_watchdog h _ buf len t ins
  timing := timing_step (e := ⟨t, a, b, .processCommand buf len⟩) h.ok h.timing ⟨ht, nofun⟩
  response := processCommand_response _ buf len fw h.response
  order q hq := (h.order q hq).trans ht

/-! ## Polls, and steps that are nothing to the device -/

theorem implements_sample (h : Implements p fw d) {t : Nat} (ht : p.now ≤ t)
    (hgap : ∀ q ∈ p.sample, t ≤ q + MAX_SAMPLE_GAP) (a b : UInt32) :
    let e : Timed UsbAction := ⟨t, a, b, .eventCounterTask⟩
    Implements { p with now := t, sample := some t } (step fw ⟨e.readings, .eventCounterTask⟩)
      (d.step (.sample t e.inputs)) where
  relays := h.relays
  lines n := by
    have hlink : ∀ q ∈ p.sample, q ≤ t ∧ t - q < 2 ^ 32 - 10000 := by
      intro q hq
      have hle := (h.order q hq).trans ht
      have := hgap q hq
      rw [MAX_SAMPLE_GAP] at this
      exact ⟨hle, by omega⟩
    have htime := h.debounceUs_eq.symm
    have hbound := debounceUs_le d.debounce
    rw [htime] at hbound
    rw [step_chan]
    simp only [Device.step, sample_channel]
    exact tracks_poll hlink htime hbound (h.lines n)
  debounce := h.debounce
  watchdog := h.watchdog
  timing := timing_step (e := ⟨t, a, b, .eventCounterTask⟩) h.ok h.timing ⟨ht, nofun⟩
  response := h.response
  order q hq := by cases hq; exact Nat.le_refl _

/-- The test on timer readings is the one on true times. -/
theorem expired_iff (h : Implements p fw d) {t : Nat} (ht : p.now ≤ t)
    (hgap : t ≤ p.check + MAX_POLL_GAP) (a b : UInt32) :
    timedOut ⟨reading t, a, b⟩ fw.watchdog = true ↔ d.Expired t := by
  have hexact := timedOut_exact (e := ⟨t, a, b, .watchdogTask⟩) h.ok h.timing ⟨ht, fun _ => hgap⟩ rfl
  have hzero : watchdogTimeOf d.watchdog = 0 ↔ timeoutUs d.watchdog = 0 := by
    rw [← watchdogTimeOf_toNat, ← UInt32.toNat_inj]
    rfl
  rw [h.watchdog, watchdogTimeOf_toNat] at hexact
  refine hexact.trans (and_congr (not_congr hzero) ?_)
  simp

theorem implements_check (h : Implements p fw d) {t : Nat} (ht : p.now ≤ t)
    (hgap : t ≤ p.check + MAX_POLL_GAP) (a b : UInt32) :
    Implements { p with now := t, check := t } (step fw ⟨⟨reading t, a, b⟩, .watchdogTask⟩)
      (d.step (.check t)) := by
  have hexp := expired_iff h ht hgap a b
  have htiming := timing_step (e := ⟨t, a, b, .watchdogTask⟩) h.ok h.timing ⟨ht, fun _ => hgap⟩
  have horder : ∀ q ∈ p.sample, q ≤ t := fun q hq => (h.order q hq).trans ht
  by_cases he : d.Expired t
  · have hstep : step fw ⟨⟨reading t, a, b⟩, .watchdogTask⟩ = { fw with
        gpioAOdr := boardWriteRelays 0, watchdog := { fw.watchdog with watchdogTimeoutPeriodUs := 0 } } := by
      simp only [step, watchdogTask, hexp.mpr he, if_true]
      rfl
    have hd : d.step (.check t) = { d with
        relays := fun _ => false, watchdog := WATCHDOG_SETTING_DISABLED } := if_pos he
    simp only [TimedStep.toStep] at htiming
    rw [hstep] at htiming ⊢
    rw [hd]
    exact ⟨fun n => by simp [Firmware.relays, bitSet_zero], h.lines, h.debounce, rfl, htiming,
      h.response, horder⟩
  · have hstep : step fw ⟨⟨reading t, a, b⟩, .watchdogTask⟩ = fw := by
      simp only [step, watchdogTask, mt hexp.mp he]
      rfl
    have hd : d.step (.check t) = d := if_neg he
    simp only [TimedStep.toStep] at htiming
    rw [hstep] at htiming ⊢
    rw [hd]
    exact ⟨h.relays, h.lines, h.debounce, h.watchdog, htiming, h.response, horder⟩

theorem implements_later (h : Implements p fw d) {t : Nat} (ht : p.now ≤ t) :
    Implements { p with now := t } fw d where
  relays := h.relays
  lines := h.lines
  debounce := h.debounce
  watchdog := h.watchdog
  timing := by
    refine ⟨h.timing.order.trans ht, fun hT => ?_⟩
    obtain ⟨k, hk, hkick, hkn, hkp⟩ := h.timing.armed hT
    exact ⟨k, hk, hkick, hkn.trans ht, hkp⟩
  response := h.response
  order q hq := (h.order q hq).trans ht

/-! ## Answers -/

theorem ofBits_bitSet (v : UInt8) : Nat.ofBits (fun n : Fin 8 => bitSet v n) = v.toNat := by
  have hlt := v.toNat_lt
  simp only [bitSet_eq_testBit]
  rw [Nat.ofBits_testBit, Nat.mod_eq_of_lt hlt]

theorem ofBits_port (r : Readings) (y : Port) :
    Nat.ofBits (fun n => bitSet (boardReadDigitalInputs r) (y.channel n)) = (y.value r).toNat := by
  have hlt := y.value_lt r
  have hbit : ∀ n, bitSet (boardReadDigitalInputs r) (y.channel n) = (y.value r).toNat.testBit n :=
    fun n => by rw [inputs_pin, ← value_pin, bitSet_eq_testBit]
  simp only [hbit]
  rw [Nat.ofBits_testBit, Nat.mod_eq_of_lt hlt]

theorem bitByte_toNat (b : Bool) : (bitByte b).toNat = b.toNat := by
  cases b <;> rfl

/-- The firmware writes the number that the device answers. -/
theorem answer_numeral (h : Implements p fw d) {α : Type} (e : Timed α) (c : Command) :
    c.answer e.readings fw = match d.answer e.inputs c with
      | some v => numeral (replyFormat c).1 (replyFormat c).2 v
      | none => [] := by
  have hrelays : Nat.ofBits d.relays = fw.relays.toNat := by
    rw [← ofBits_bitSet, funext h.relays]
  have hinputs : Nat.ofBits e.inputs = (boardReadDigitalInputs e.readings).toNat := ofBits_bitSet _
  cases c with
  | readSingleRelay n => simp only [Command.answer, Device.answer, replyFormat, bitByte_toNat, h.relays]
  | readRelayPort => simp only [Command.answer, Device.answer, replyFormat, hrelays]
  | readInputLine y n =>
    simp only [Command.answer, Device.answer, replyFormat, bitByte_toNat, value_pin, Timed.inputs,
      inputs_pin]
  | readInputPort y | readInputPortDecimal y =>
    simp only [Command.answer, Device.answer, replyFormat, Timed.inputs, ofBits_port]
  | readInputs => simp only [Command.answer, Device.answer, replyFormat, hinputs]
  | readEventCounter n | readAndResetEventCounter n =>
    simp only [Command.answer, Device.answer, replyFormat, h.count]
  | getDebounce =>
    have hlt := d.debounce.isLt
    simp only [Command.answer, Device.answer, replyFormat, h.debounce, queryAnswer_debounce]
    rw [numeral_snoc, Nat.mod_eq_of_lt (by omega)]
    rfl
  | getWatchdog =>
    have hlt := d.watchdog.isLt
    simp only [Command.answer, Device.answer, replyFormat, h.watchdog, queryAnswer_watchdog]
    rw [numeral_snoc, Nat.mod_eq_of_lt (by omega)]
    rfl
  | _ => rfl

/-- A report is queued for a command that has an answer, and carries it. -/
theorem reply_queued (h : Implements p fw d) {α : Type} (e : Timed α) (buf : List UInt8) (len : Nat)
    (rspBuf : Vector UInt8 CFG_TUD_HID_EP_BUFSIZE) :
    (deliverCommand e.readings buf len rspBuf fw).1 =
      (d.reply (.command e.time e.inputs (decode (cstr buf)))).map encodeReply := by
  rw [deliverCommand_report]
  cases decode (cstr buf) with
  | none => rfl
  | some c =>
    rw [Option.bind_some, answer_numeral h e c, Device.reply, Option.bind_some]
    cases hv : d.answer e.inputs c with
    | none => rfl
    | some v =>
      have hwidth : hasAnswer c = true := by rw [← answer_isSome d e.inputs, hv]; rfl
      have hne : numeral (replyFormat c).1 (replyFormat c).2 v ≠ [] :=
        List.ne_nil_of_length_pos (by rw [numeral_length]; exact of_decide_eq_true hwidth)
      exact if_neg hne

/-! ## One step -/

theorem implements_step (h : Implements p fw d) {e : Timed UsbAction} (he : p.Admits e) :
    Implements (p.next e) (usbStep fw e.usbStep).2 (d.step (deviceEv e)) ∧
      shows fw e = d.shows (deviceEv e) := by
  suffices hstep : Implements (p.next e) (usbStep fw e.usbStep).2 (d.step (deviceEv e)) ∧
      (usbStep fw e.usbStep).1 = (d.reply (deviceEv e)).map encodeReply by
    obtain ⟨hnext, hqueued⟩ := hstep
    refine ⟨hnext, ?_⟩
    rw [shows, Device.shows, hqueued, funext hnext.relays]
  obtain ⟨t, a, b, action⟩ := e
  cases action with
  | setReport reportId reportType buffer bufsize rspBuf =>
    simp only [usbStep, Timed.usbStep, setReport_eq, deviceEv]
    cases hc : commandOf reportId reportType buffer bufsize with
    | none => exact ⟨implements_later h he.forward, rfl⟩
    | some c =>
      refine ⟨?_, reply_queued h _ c.1 c.2.toNat rspBuf⟩
      exact implements_command h he.forward a b c.1 c.2.toNat _
  | getReport _ _ _ _ => exact ⟨implements_later h he.forward, rfl⟩
  | eventCounterTask => exact ⟨implements_sample h he.forward (he.sample rfl) a b, rfl⟩
  | watchdogTask => exact ⟨implements_check h he.forward (he.check rfl) a b, rfl⟩

end

/-! ## Runs -/

theorem implements_init (start : Nat) : Implements ⟨start, start, none⟩ init .init where
  relays n := bitSet_zero n
  lines n := by
    have hchan := eventCounterInit_chan reset.events n
    exact ⟨congrArg EventCounter.state hchan, congrArg EventCounter.count hchan, fun hs => by cases hs⟩
  debounce := by decide
  watchdog := by decide
  timing := ⟨Nat.le_refl _, fun hT => (hT rfl).elim⟩
  response := ok_init.response
  order := nofun

theorem refines (start : Nat) : Machine.Refines timedUsb device deviceEv (Paced start)
    (fun evs fw d => Implements ((pace start).run evs) fw d) shows Device.shows where
  ok _ _ h := (Machine.always_snoc.mp h).1
  init := implements_init start
  step h e d hok hrel := by
    rw [Machine.run_snoc]
    exact implements_step hrel (Machine.always_snoc.mp hok).2

/-- The device that the firmware implements after a paced run. -/
theorem implements_run {start : Nat} {evs : List (Timed UsbAction)} (hp : Paced start evs) :
    Implements ((pace start).run evs) (timedUsb.run evs) (device.run (evs.map deviceEv)) :=
  ((refines start).run evs hp).1

/-! ## The main loop -/

/-- The device after some iterations. -/
def deviceAfter (its : List Iteration) : Device :=
  device.run ((its.flatMap Iteration.steps).map deviceEv)

theorem deviceAfter_snoc (its : List Iteration) (it : Iteration) :
    deviceAfter (its ++ [it]) = device.runFrom (deviceAfter its) (it.steps.map deviceEv) := by
  rw [deviceAfter, List.flatMap_append, List.flatMap_singleton, List.map_append, Machine.run_append]
  rfl

theorem mainLoop_implements {start : Nat} {its : List Iteration} (h : LoopTimed start its) :
    Implements ((pace start).run (its.flatMap Iteration.steps)) (mainLoop.run its) (deviceAfter its) := by
  rw [mainLoop_run]
  exact implements_run (paced_of_loopTimed h)

/-! ## The result -/

/-- **The firmware implements the device**, in every paced interleaving. -/
theorem device_refined (start : Nat) (evs : List (Timed UsbAction)) (h : Paced start evs) :
    timedUsb.trace shows evs = device.trace Device.shows (evs.map deviceEv) ∧
      (∀ n, ((timedUsb.run evs).events.chan n).count.toNat =
        ((device.run (evs.map deviceEv)).lines n).events % 2 ^ 16) ∧
      (timedUsb.run evs).events.debounceTimeUs.toNat =
        debounceUs (device.run (evs.map deviceEv)).debounce ∧
      (timedUsb.run evs).watchdog.watchdogTimeoutPeriodUs.toNat =
        timeoutUs (device.run (evs.map deviceEv)).watchdog := by
  obtain ⟨hrel, htrace⟩ := (refines start).run evs h
  exact ⟨htrace, hrel.count, hrel.debounceUs_eq, hrel.timeoutUs_eq⟩

/-- A command just before the timer wraps, and the two polls just after it. -/
theorem device_refined_wrapping :
    let command : Timed UsbAction :=
      ⟨2 ^ 32 - 1, 0, 0, .setReport 1 .output (ascii ['R', 'E', '0'] ++ [0]) 7 (.replicate _ 0)⟩
    let evs := [command, ⟨2 ^ 32 + 1, 0, 1, .eventCounterTask⟩, ⟨2 ^ 32 + 2, 0, 1, .watchdogTask⟩]
    timedUsb.trace shows evs = device.trace Device.shows (evs.map deviceEv) ∧
      ((timedUsb.run evs).events.chan 0).count.toNat = 1 := by
  intro command evs
  have h : Paced (2 ^ 32 - 2) evs := by decide
  obtain ⟨htrace, hcount, -⟩ := device_refined _ evs h
  refine ⟨htrace, (hcount 0).trans ?_⟩
  decide +kernel

end Relacon.L6
