import Relacon.L4Firmware.Run

/-!
# The HID callbacks

TinyUSB calls `tud_hid_set_report_cb` for an output report, from the control
endpoint or from the interrupt OUT endpoint, and `tud_hid_get_report_cb` when the
host asks for an input report. `usb` lets these calls interleave with the two
polled tasks; it is a part of the `firmware` machine (`usb_sim`), with the input
report queued by each step as output.

A buffer is the memory from the pointer on. The bytes of `rspBuf` before it is
filled are arbitrary and part of the step.

* `sendResponse_eq`: what is queued is the response, padded with zeros.
* `queued_run`: a stored response that is not empty is the payload of the input
  report queued last.
-/
namespace Relacon.L5
open Relacon.Core Relacon.L1 Relacon.L2 Relacon.L3 Relacon.L4

/-- `hid_report_type_t` of TinyUSB. -/
inductive HidReportType where
  | invalid | input | output | feature
  deriving DecidableEq, Repr

def REPORT_ID_ADU_CMD_RSP : UInt8 := 1

/-- mirrors src/tusb_config.h:104 -/
abbrev CFG_TUD_HID_EP_BUFSIZE : Nat := 8

/-- The arguments of `tud_hid_report`. -/
structure InReport where
  reportId : UInt8
  report : List UInt8
  deriving DecidableEq, Repr

/-- The capacity passed for the response is the size of the variable `reqlen`.
Returns the length and the buffer.
mirrors src/Usb.c:52-71 -/
def tudHidGetReportCb (reportId : UInt8) (reportType : HidReportType) (buffer : List UInt8)
    (reqlen : UInt16) (fw : Firmware) : UInt16 × List UInt8 :=
  if reportType = .input ∧ reportId = REPORT_ID_ADU_CMD_RSP then
    let sizeofReqlen := 2
    let (ret, buffer) := aduProtocolGetResponse buffer sizeofReqlen fw.response
    let ret := UInt16.ofNat ret
    if ret < reqlen then (reqlen, memset buffer ret.toNat 0 (reqlen - ret).toNat)
    else (ret, buffer)
  else (0, buffer)

/-- The response to a successful command, if there is one.
mirrors src/Usb.c:131-141 -/
def sendResponse (rspBuf : Vector UInt8 CFG_TUD_HID_EP_BUFSIZE) (response : Response) :
    Option InReport :=
  let (rspLen, rspBuf) := aduProtocolGetResponse rspBuf.toList CFG_TUD_HID_EP_BUFSIZE response
  if rspLen > 0 then
    some ⟨REPORT_ID_ADU_CMD_RSP, memset rspBuf rspLen 0 (CFG_TUD_HID_EP_BUFSIZE - rspLen)⟩
  else none

/-- The queued input report, if any, and the new state. A report from the OUT
endpoint (type `invalid`) has its report ID in its first byte.
mirrors src/Usb.c:103-143 -/
def tudHidSetReportCb (r : Readings) (reportId : UInt8) (reportType : HidReportType)
    (buffer : List UInt8) (bufsize : UInt16) (rspBuf : Vector UInt8 CFG_TUD_HID_EP_BUFSIZE)
    (fw : Firmware) : Option InReport × Firmware :=
  let (reportId, reportType, buffer, bufsize) :=
    if reportType = .invalid then (deref buffer, .output, buffer.tail, bufsize - 1)
    else (reportId, reportType, buffer, bufsize)
  if reportType = .output ∧ reportId = REPORT_ID_ADU_CMD_RSP then
    let (success, fw) := aduProtocolProcessCommand r buffer bufsize.toNat fw
    (if success then sendResponse rspBuf fw.response else none, fw)
  else (none, fw)

/-! ## The USB machine -/

inductive UsbAction where
  | setReport (reportId : UInt8) (reportType : HidReportType) (buffer : List UInt8)
      (bufsize : UInt16) (rspBuf : Vector UInt8 CFG_TUD_HID_EP_BUFSIZE)
  | getReport (reportId : UInt8) (reportType : HidReportType) (buffer : List UInt8) (reqlen : UInt16)
  | eventCounterTask
  | watchdogTask
  deriving DecidableEq, Repr

structure UsbStep where
  readings : Readings
  action : UsbAction
  deriving DecidableEq, Repr

/-- The report queued by a step, if any, and the new state. -/
def usbStep (fw : Firmware) (e : UsbStep) : Option InReport × Firmware :=
  match e.action with
  | .setReport reportId reportType buffer bufsize rspBuf =>
    tudHidSetReportCb e.readings reportId reportType buffer bufsize rspBuf fw
  | .getReport _ _ _ _ => (none, fw)
  | .eventCounterTask => (none, step fw ⟨e.readings, .eventCounterTask⟩)
  | .watchdogTask => (none, step fw ⟨e.readings, .watchdogTask⟩)

def usb : Machine Firmware UsbStep := ⟨init, fun fw e => (usbStep fw e).2⟩

/-- The input report queued last. -/
def lastQueued : List UsbStep → Option InReport := usb.latest fun fw e => (usbStep fw e).1

/-! ## Which command a report carries -/

/-- The command and its length that an output report hands to the processor. -/
def commandOf (reportId : UInt8) (reportType : HidReportType) (buffer : List UInt8)
    (bufsize : UInt16) : Option (List UInt8 × UInt16) :=
  match reportType with
  | .invalid =>
    if deref buffer = REPORT_ID_ADU_CMD_RSP then some (buffer.tail, bufsize - 1) else none
  | .output => if reportId = REPORT_ID_ADU_CMD_RSP then some (buffer, bufsize) else none
  | _ => none

/-- Process a command, and queue the response if it succeeded. -/
def deliverCommand (r : Readings) (buf : List UInt8) (len : Nat)
    (rspBuf : Vector UInt8 CFG_TUD_HID_EP_BUFSIZE) (fw : Firmware) : Option InReport × Firmware :=
  let res := aduProtocolProcessCommand r buf len fw
  (if res.1 then sendResponse rspBuf res.2.response else none, res.2)

theorem setReport_eq (r : Readings) (reportId : UInt8) (reportType : HidReportType)
    (buffer : List UInt8) (bufsize : UInt16) (rspBuf : Vector UInt8 CFG_TUD_HID_EP_BUFSIZE)
    (fw : Firmware) :
    tudHidSetReportCb r reportId reportType buffer bufsize rspBuf fw =
      match commandOf reportId reportType buffer bufsize with
      | some (buf, len) => deliverCommand r buf len.toNat rspBuf fw
      | none => (none, fw) := by
  unfold tudHidSetReportCb commandOf deliverCommand
  cases reportType with
  | invalid => by_cases h : deref buffer = REPORT_ID_ADU_CMD_RSP <;> simp [h]
  | output => by_cases h : reportId = REPORT_ID_ADU_CMD_RSP <;> simp [h]
  | input => simp
  | feature => simp

/-- What a step of `usb` is to the firmware. -/
def usbEvents (_ : Firmware) (e : UsbStep) : List Step :=
  match e.action with
  | .setReport reportId reportType buffer bufsize _ =>
    match commandOf reportId reportType buffer bufsize with
    | some (buf, len) => [⟨e.readings, .processCommand buf len.toNat⟩]
    | none => []
  | .getReport _ _ _ _ => []
  | .eventCounterTask => [⟨e.readings, .eventCounterTask⟩]
  | .watchdogTask => [⟨e.readings, .watchdogTask⟩]

theorem usb_sim : Machine.Sim usb firmware (fun fw => fw) usbEvents where
  init := rfl
  step := by
    intro fw e
    simp only [usb, usbStep, usbEvents]
    cases e.action with
    | setReport reportId reportType buffer bufsize rspBuf =>
      simp only [setReport_eq]
      cases commandOf reportId reportType buffer bufsize with
      | none => rfl
      | some c => rfl
    | getReport _ _ _ _ => rfl
    | eventCounterTask => rfl
    | watchdogTask => rfl

theorem usb_reachable (evs : List UsbStep) : firmware.Reachable (usb.run evs) :=
  ⟨usb.simEvents usbEvents evs, (usb_sim.run evs).symm⟩

/-! ## Reports carry the padded response -/

/-- The first `n` bytes of `s`, followed by zeros. -/
def padded (n : Nat) (s : List UInt8) : List UInt8 := s.take n ++ List.replicate (n - s.length) 0

@[simp] theorem padded_length (n : Nat) (s : List UInt8) : (padded n s).length = n := by
  simp only [padded, List.length_append, List.length_take, List.length_replicate]
  omega

theorem padded_getElem? (n : Nat) (s : List UInt8) (i : Nat) :
    (padded n s)[i]? = if i < n then some (s[i]?.getD 0) else none := by
  simp only [padded, List.getElem?_append, List.length_take, List.getElem?_take,
    List.getElem?_replicate]
  by_cases hs : i < s.length
  · by_cases hn : i < n
    · simp [hs, hn]
    · have h2 : ¬ i - min n s.length < n - s.length := by omega
      simp [hn, h2]
  · have hnone : s[i]? = none := List.getElem?_eq_none (by omega)
    by_cases hn : i < n
    · have h2 : i - min n s.length < n - s.length := by omega
      simp [hs, hn, h2]
    · have h2 : ¬ i - min n s.length < n - s.length := by omega
      simp [hn, h2]

/-- A shorter report carries the same payload. -/
theorem take_padded {k n : Nat} (h : k ≤ n) (s : List UInt8) : (padded n s).take k = padded k s := by
  apply List.ext_getElem?
  intro i
  rw [List.getElem?_take, padded_getElem?, padded_getElem?]
  by_cases hk : i < k
  · rw [if_pos hk, if_pos hk, if_pos (by omega)]
  · rw [if_neg hk, if_neg hk]

theorem sendResponse_eq {response : Response} (h : response.Ok)
    (rspBuf : Vector UInt8 CFG_TUD_HID_EP_BUFSIZE) :
    sendResponse rspBuf response =
      if response.bytes = [] then none else some ⟨REPORT_ID_ADU_CMD_RSP, padded 8 response.bytes⟩ := by
  have hlen : response.bytes.length ≤ 5 := h.bytes_length ▸ h.len
  simp only [sendResponse, getResponse_eq h, CFG_TUD_HID_EP_BUFSIZE]
  by_cases h0 : response.bytes = []
  · simp [h0]
  · have hpos := List.length_pos_of_ne_nil h0
    have hmin : min 8 response.bytes.length = response.bytes.length := by omega
    have htake : response.bytes.take 8 = response.bytes := List.take_of_length_le (by omega)
    have hdrop : (response.bytes ++ rspBuf.toList.drop response.bytes.length).drop
        (response.bytes.length + (8 - response.bytes.length)) = [] := by
      apply List.drop_eq_nil_of_le
      simp
    rw [hmin, if_pos hpos, if_neg h0, memset, List.take_left, padded, htake, hdrop, List.append_nil]

/-- A stored response that is not empty is in the input report queued last. -/
def QueuedOk (last : Option InReport) (response : Response) : Prop :=
  response.bytes ≠ [] → last = some ⟨REPORT_ID_ADU_CMD_RSP, padded 8 response.bytes⟩

theorem queued_command {r : Readings} {buf : List UInt8} {len : Nat} {fw : Firmware}
    {last : Option InReport} (hok : FwOk fw) (h : QueuedOk last fw.response)
    (rspBuf : Vector UInt8 CFG_TUD_HID_EP_BUFSIZE) :
    QueuedOk ((deliverCommand r buf len rspBuf fw).1.or last)
      (deliverCommand r buf len rspBuf fw).2.response := by
  intro hne
  simp only [deliverCommand] at hne ⊢
  cases hs : (aduProtocolProcessCommand r buf len fw).1 with
  | true => simp [sendResponse_eq (processCommand_response r buf len fw hok.response), hne]
  | false =>
    have hresp := processCommand_response_failed r buf len fw hs
    rw [hresp] at hne ⊢
    rw [if_neg Bool.false_ne_true, Option.none_or]
    by_cases hlong : strnlen buf len > MAX_CMD_STR_SIZE
    · simp only [prepare, if_pos hlong] at hne ⊢
      exact h hne
    · simp only [prepare, if_neg hlong] at hne
      exact (hne rfl).elim

theorem queued_step {fw : Firmware} {e : UsbStep} {last : Option InReport} (hok : FwOk fw)
    (h : QueuedOk last fw.response) :
    QueuedOk ((usbStep fw e).1.or last) (usbStep fw e).2.response := by
  unfold usbStep
  cases e.action with
  | setReport reportId reportType buffer bufsize rspBuf =>
    simp only [setReport_eq]
    cases commandOf reportId reportType buffer bufsize with
    | none => exact h
    | some c => exact queued_command hok h rspBuf
  | getReport _ _ _ _ => exact h
  | eventCounterTask => exact h
  | watchdogTask => exact h

theorem queued_run (evs : List UsbStep) : QueuedOk (lastQueued evs) (usb.run evs).response := by
  induction evs using List.reverseRecOn with
  | nil => exact fun h => (h rfl).elim
  | append_singleton hist e ih =>
    rw [lastQueued, Machine.latest_snoc, Machine.run_snoc]
    exact queued_step (ok_reachable (usb_reachable hist)) ih

end Relacon.L5
