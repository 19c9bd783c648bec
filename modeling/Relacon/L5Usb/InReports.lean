import Mathlib.Data.List.DropRight
import Relacon.L3Protocol.Answers
import Relacon.L5Usb.Hid

/-!
# Every input report decodes to one response

A response has no length field: the report buffer is one byte longer than the
payload the descriptor allows, and the host finds the end of the response by its
zero padding. `inReport_decodes`: a report is queued exactly for a successful
command with an answer; a response is at most five digits, so the payload holds
all of it, and stripping the zeros behind it gives it back.
-/
namespace Relacon.L5
open Relacon.Core Relacon.L1 Relacon.L2 Relacon.L3 Relacon.L4

/-- The payload bytes of an input report.
mirrors src/UsbDescriptors.c:91 (`HID_REPORT_COUNT`) -/
def REPORT_COUNT : Nat := CFG_TUD_HID_EP_BUFSIZE - 1

/-- At most five ASCII digits. -/
def ShortDigits (s : List UInt8) : Prop := s.length ≤ 5 ∧ ∀ c ∈ s, isdigit c = true

theorem shortDigits_of_ok {response : Response} (h : response.Ok) : ShortDigits response.bytes :=
  ⟨h.bytes_length ▸ h.len, h.digits⟩

/-- The padding of a string without zeros can be stripped again. -/
theorem rdropWhile_padded {n : Nat} {s : List UInt8} (hlen : s.length ≤ n) (hz : ∀ c ∈ s, c ≠ 0) :
    (padded n s).rdropWhile (· == 0) = s := by
  have hpad : ∀ c ∈ List.replicate (n - s.length) (0 : UInt8), (c == 0) = true := by
    intro c hc
    simpa using (List.mem_replicate.mp hc).2
  have hkeep : s.reverse.dropWhile (· == 0) = s.reverse := by
    rw [List.dropWhile_eq_self_iff]
    intro hpos
    simpa using hz _ (List.mem_reverse.mp (List.getElem_mem hpos))
  rw [padded, List.take_of_length_le hlen, List.rdropWhile, List.reverse_append,
    List.reverse_replicate, List.dropWhile_append_of_pos hpad, hkeep, List.reverse_reverse]

/-- A report holds all of a short response, and its padding shows where that ends. -/
theorem padded_decodes {s : List UInt8} (h : ShortDigits s) :
    padded 8 s = s ++ List.replicate (CFG_TUD_HID_EP_BUFSIZE - s.length) 0 ∧
      s.length ≤ REPORT_COUNT ∧
      ((padded 8 s).take REPORT_COUNT).rdropWhile (· == 0) = s := by
  have hcount : REPORT_COUNT = 7 := rfl
  have hlen := h.1
  have hz : ∀ c ∈ s, c ≠ 0 := fun c hc => isdigit_ne_zero (h.2 c hc)
  refine ⟨?_, by omega, ?_⟩
  · rw [padded, List.take_of_length_le (by omega)]
  · rw [hcount, take_padded (by omega), rdropWhile_padded (by omega) hz]

/-- The input report that carries a response. -/
def reportOf (s : List UInt8) : Option InReport :=
  if s = [] then none else some ⟨REPORT_ID_ADU_CMD_RSP, padded 8 s⟩

/-- Whatever was stored, a command queues its own answer, if it has one. -/
theorem deliverCommand_report (r : Readings) (buf : List UInt8) (len : Nat)
    (rspBuf : Vector UInt8 CFG_TUD_HID_EP_BUFSIZE) (fw : Firmware) :
    (deliverCommand r buf len rspBuf fw).1 =
      (decode (cstr buf)).bind fun c => reportOf (c.answer r fw) := by
  simp only [deliverCommand]
  cases hd : decode (cstr buf) with
  | none =>
    have hfail : (aduProtocolProcessCommand r buf len fw).1 = false := by
      rw [processCommand_success, hd]
    simp [hfail]
  | some c =>
    have hshort := strnlen_of_decode hd len
    have hclear : (prepare buf len fw).response = fw.response.clear := by
      rw [prepare, if_neg (by omega)]
    have hbytes := processCommand_answer r buf len fw hd
    have hok : (aduProtocolProcessCommand r buf len fw).2.response.Ok := by
      rw [processCommand_response_some r buf len fw hd]
      exact exec_response r _ c (hclear ▸ fw.response.ok_clear)
    cases hs : (aduProtocolProcessCommand r buf len fw).1 with
    | true => rw [if_pos rfl, sendResponse_eq hok, hbytes]; rfl
    | false =>
      -- it has written nothing, so there is no answer
      rw [processCommand_response_failed r buf len fw hs, hclear] at hbytes
      have hnone : c.answer r fw = [] := hbytes.symm
      simp [hnone, reportOf]

/-- What a processed command queues, in terms of its own answer. -/
theorem deliverCommand_queued (r : Readings) (buf : List UInt8) (len : Nat)
    (rspBuf : Vector UInt8 CFG_TUD_HID_EP_BUFSIZE) {fw : Firmware} (hok : FwOk fw) :
    (deliverCommand r buf len rspBuf fw).1 =
      if (aduProtocolProcessCommand r buf len fw).1 = true ∧ answerTo r fw (cstr buf) ≠ [] then
        some ⟨REPORT_ID_ADU_CMD_RSP,
          padded 8 (deliverCommand r buf len rspBuf fw).2.response.bytes⟩
      else none := by
  simp only [deliverCommand]
  cases hs : (aduProtocolProcessCommand r buf len fw).1 with
  | false => simp
  | true =>
    rw [sendResponse_eq (processCommand_response r buf len fw hok.response),
      processCommand_succeeded r buf len fw hs]
    by_cases hne : answerTo r fw (cstr buf) = [] <;> simp [hne]

/-- **Every input report decodes to exactly one response.** -/
theorem inReport_decodes (evs : List UsbStep) (r : Readings) (reportId : UInt8)
    (reportType : HidReportType) (buffer : List UInt8) (bufsize : UInt16)
    (rspBuf : Vector UInt8 CFG_TUD_HID_EP_BUFSIZE) :
    let fw := usb.run evs
    let res := tudHidSetReportCb r reportId reportType buffer bufsize rspBuf fw
    (res.1.isSome = true ↔ ∃ buf len,
      commandOf reportId reportType buffer bufsize = some (buf, len) ∧
      (aduProtocolProcessCommand r buf len.toNat fw).1 = true ∧ answerTo r fw (cstr buf) ≠ []) ∧
    ShortDigits fw.response.bytes ∧ ShortDigits res.2.response.bytes ∧
    ∀ q, res.1 = some q → q.reportId = REPORT_ID_ADU_CMD_RSP ∧
      q.report = res.2.response.bytes ++
        List.replicate (CFG_TUD_HID_EP_BUFSIZE - res.2.response.bytes.length) 0 ∧
      res.2.response.bytes.length ≤ REPORT_COUNT ∧
      (q.report.take REPORT_COUNT).rdropWhile (· == 0) = res.2.response.bytes := by
  intro fw res
  have hok : FwOk fw := ok_reachable (usb_reachable evs)
  have hres : res = _ := setReport_eq r reportId reportType buffer bufsize rspBuf fw
  cases hc : commandOf reportId reportType buffer bufsize with
  | none =>
    simp only [hc] at hres
    rw [hres]
    refine ⟨?_, shortDigits_of_ok hok.response, shortDigits_of_ok hok.response, ?_⟩
    · simp
    · intro q hq
      cases hq
  | some cmd =>
    obtain ⟨buf, len⟩ := cmd
    simp only [hc] at hres
    have hresp : ShortDigits (deliverCommand r buf len.toNat rspBuf fw).2.response.bytes :=
      shortDigits_of_ok (processCommand_response r buf len.toNat fw hok.response)
    have hqueued := deliverCommand_queued r buf len.toNat rspBuf hok
    rw [hres]
    refine ⟨?_, shortDigits_of_ok hok.response, hresp, ?_⟩
    · rw [hqueued]
      simp
    · intro q hq
      rw [hqueued] at hq
      split at hq
      · cases hq
        exact ⟨rfl, padded_decodes hresp⟩
      · cases hq

end Relacon.L5
