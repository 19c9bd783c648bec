import Relacon.Core.Parts
import Relacon.L5Usb.InReports

/-!
# The polls of the event counters are invisible

`main` polls the event counters between the calls of USB and of the watchdog, and
nothing fixes how often, when, or what the inputs are then. `polls_invisible`: none
of it shows, except in the digits that answer `REn` and `RCn`. Two runs with the
same commands and the same watchdog polls, each with its own time, end with the same
relays, debounce time and watchdog, and queue the same reports up to those digits;
the polls of the event counters in the two runs have nothing to do with each other,
and one run may have none.

`HostPart` is the part of the firmware that this is about, and `hostView` what it
sees of a step: the polls of the event counters are not among it, nor GET_REPORT,
nor reports that bring no command.
-/
namespace Relacon.L5
open Relacon.Core Relacon.L1 Relacon.L2 Relacon.L3 Relacon.L4

/-! ## What a host sets -/

inductive HostView where
  /-- a command, or something that is none -/
  | command (r : Readings) (c : Option Command)
  | watchdogTask (r : Readings)
  deriving DecidableEq, Repr

def hostView (e : UsbStep) : Option HostView :=
  match e.action with
  | .setReport reportId reportType buffer bufsize _ =>
    (commandOf reportId reportType buffer bufsize).map fun c => .command e.readings (decode (cstr c.1))
  | .getReport _ _ _ _ => none
  | .eventCounterTask => none
  | .watchdogTask => some (.watchdogTask e.readings)

@[ext]
structure HostPart where
  gpioAOdr : UInt16
  debounceTimeUs : UInt32
  watchdog : Watchdog
  deriving DecidableEq, Repr

def hostPart (fw : Firmware) : HostPart := ⟨fw.gpioAOdr, fw.events.debounceTimeUs, fw.watchdog⟩

def HostPart.relays (s : HostPart) : UInt8 := boardReadRelays s.gpioAOdr

def HostPart.execute (s : HostPart) : Command → HostPart
  | .setRelay n => { s with gpioAOdr := boardWriteRelays (setBit s.relays n) }
  | .clearRelay n => { s with gpioAOdr := boardWriteRelays (clearBit s.relays n) }
  | .writeRelayPort v => { s with gpioAOdr := boardWriteRelays v }
  | .setDebounce i => { s with debounceTimeUs := debounceTimeOf i }
  | .setWatchdog i => { s with watchdog := watchdogTimeoutSet (watchdogTimeOf i) s.watchdog }
  | _ => s

def HostPart.step (s : HostPart) : HostView → HostPart
  | .command r c =>
    let s := c.elim s s.execute
    { s with watchdog := watchdogKick r s.watchdog }
  | .watchdogTask r =>
    let (odr, watchdog) := watchdogTask r s.gpioAOdr s.watchdog
    { s with gpioAOdr := odr, watchdog := watchdog }

/-- The firmware with these settings, and nothing counted. -/
def HostPart.firmware (s : HostPart) : Firmware :=
  { init with
    gpioAOdr := s.gpioAOdr
    events := { init.events with debounceTimeUs := s.debounceTimeUs }
    watchdog := s.watchdog }

/-! ## What a host is told -/

/-- The command is answered with a count. -/
def readsCount : Command → Bool
  | .readEventCounter _ | .readAndResetEventCounter _ => true
  | _ => false

/-- The report that answers a command, without its digits if they are a count. -/
def maskCount (c : Command) (q : InReport) : InReport :=
  if readsCount c then { q with report := [] } else q

/-- The report queued by a step, without the digits of a count. -/
def maskedReport (fw : Firmware) (e : UsbStep) : Option InReport :=
  (usbStep fw e).1.map fun q =>
    match hostView e with
    | some (.command _ (some c)) => maskCount c q
    | _ => q

def HostPart.report (s : HostPart) : HostView → Option InReport
  | .command r (some c) => (reportOf (c.answer r s.firmware)).map (maskCount c)
  | _ => none

def hostMachine : Machine HostPart HostView := ⟨hostPart init, HostPart.step⟩

/-! ## Commands -/

section
variable (r : Readings) (fw : Firmware)

theorem hostPart_command (buf : List UInt8) (len : Nat) : hostPart (aduProtocolProcessCommand r buf len fw).2 =
    (hostPart fw).step (.command r (decode (cstr buf))) := by
  rw [hostPart, processCommand_gpioAOdr, processCommand_events, processCommand_watchdog]
  cases decode (cstr buf) with
  | none => rfl
  | some c =>
    simp only [exec_gpioAOdr, exec_events, exec_watchdog]
    cases c with
    | readAndResetEventCounter n =>
      simp only [eventCounterRead_debounce]
      rfl
    | _ => rfl

/-- Only the counts are no part of what a host sets. -/
theorem answer_hostPart {c : Command} (h : readsCount c = false) :
    c.answer r (hostPart fw).firmware = c.answer r fw := by
  cases c with
  | readEventCounter n | readAndResetEventCounter n => cases h
  | _ => rfl

theorem maskedReport_answer (c : Command) : (reportOf (c.answer r fw)).map (maskCount c) =
    (reportOf (c.answer r (hostPart fw).firmware)).map (maskCount c) := by
  cases h : readsCount c with
  | false => rw [answer_hostPart r fw h]
  | true =>
    have hdigits : ∀ fw : Firmware, reportOf (c.answer r fw) =
        some ⟨REPORT_ID_ADU_CMD_RSP, padded 8 (c.answer r fw)⟩ := by
      intro fw
      have hlen : (c.answer r fw).length = 5 := by
        cases c with
        | readEventCounter n | readAndResetEventCounter n => exact numeral_length _ _ _
        | _ => cases h
      exact if_neg (List.ne_nil_of_length_eq_add_one hlen)
    simp only [hdigits, Option.map_some, maskCount, h, if_true]

end

/-! ## The part -/

theorem hostPart_step (fw : Firmware) (e : UsbStep) :
    hostPart (usbStep fw e).2 = (hostView e).elim (hostPart fw) (hostPart fw).step := by
  obtain ⟨r, action⟩ := e
  cases action with
  | setReport reportId reportType buffer bufsize rspBuf =>
    simp only [usbStep, setReport_eq, hostView]
    cases commandOf reportId reportType buffer bufsize with
    | none => rfl
    | some c => exact hostPart_command r fw c.1 c.2.toNat
  | getReport _ _ _ _ => rfl
  | eventCounterTask => rfl
  | watchdogTask => rfl

theorem maskedReport_eq (fw : Firmware) (e : UsbStep) :
    maskedReport fw e = (hostView e).bind (hostPart fw).report := by
  obtain ⟨r, action⟩ := e
  cases action with
  | setReport reportId reportType buffer bufsize rspBuf =>
    simp only [maskedReport, usbStep, setReport_eq, hostView]
    cases commandOf reportId reportType buffer bufsize with
    | none => rfl
    | some c =>
      simp only [deliverCommand_report, Option.map_some, Option.bind_some]
      cases decode (cstr c.1) with
      | none => rfl
      | some c => exact maskedReport_answer r fw c
  | getReport _ _ _ _ => rfl
  | eventCounterTask => rfl
  | watchdogTask => rfl

theorem host_part : Machine.Part usb hostMachine hostPart hostView maskedReport HostPart.report where
  init := rfl
  step fw e := by
    refine (hostPart_step fw e).trans ?_
    cases hostView e <;> rfl
  out := maskedReport_eq

/-- **The polls of the event counters are invisible**, but for the counts that are read. -/
theorem polls_invisible (a b : List UsbStep) (h : a.filterMap hostView = b.filterMap hostView) :
    (usb.run a).gpioAOdr = (usb.run b).gpioAOdr ∧
      (usb.run a).events.debounceTimeUs = (usb.run b).events.debounceTimeUs ∧
      (usb.run a).watchdog = (usb.run b).watchdog ∧
      (usb.trace maskedReport a).reduceOption = (usb.trace maskedReport b).reduceOption := by
  obtain ⟨hpart, hreports⟩ := host_part.isolated h
  exact ⟨congrArg HostPart.gpioAOdr hpart, congrArg HostPart.debounceTimeUs hpart,
    congrArg HostPart.watchdog hpart, hreports⟩

/-- Three polls between the commands, with rising edges, or none. -/
theorem polls_invisible_none :
    let command (t : UInt32) (cs : List Char) : UsbStep :=
      ⟨⟨t, 0, 0⟩, .setReport 1 .output (ascii cs ++ [0]) 7 (.replicate _ 0)⟩
    let poll (t gpioB : UInt32) : UsbStep := ⟨⟨t, 0, gpioB⟩, .eventCounterTask⟩
    let busy := [poll 3 1, command 6 ['S', 'K', '0'], poll 7 0, command 8 ['R', 'E', '0'], poll 15 2]
    let idle := [command 6 ['S', 'K', '0'], command 8 ['R', 'E', '0']]
    (usb.run busy).events ≠ (usb.run idle).events ∧
      (usb.run busy).gpioAOdr = (usb.run idle).gpioAOdr ∧
      (usb.trace maskedReport busy).reduceOption = (usb.trace maskedReport idle).reduceOption := by
  intro command poll busy idle
  obtain ⟨hodr, -, -, hreports⟩ := polls_invisible busy idle (by decide +kernel)
  exact ⟨by decide +kernel, hodr, hreports⟩

end Relacon.L5
