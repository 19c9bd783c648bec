import Relacon.L5Usb.Hid

/-!
# The response over the control endpoint

A host may fetch the response with a GET_REPORT request instead of waiting for the
input report. `Delivers` is what it should get: the requested number of bytes,
the response padded with zeros, no byte behind them touched, and for the seven
payload bytes of a report the same as in the input report queued last.

`delivers_iff` says when it does. The callback passes the size of its variable
`reqlen`, two bytes, as the capacity, and `AduProtocolGetResponse` copies the
whole response whatever the capacity is.
-/
namespace Relacon.L5
open Relacon.Core Relacon.L1 Relacon.L2 Relacon.L3 Relacon.L4

/-- The request for `reqlen` bytes is answered in full with the response `s`, and
with the same bytes as the input report `queued`. -/
structure Answers (s : List UInt8) (queued : Option InReport) (buffer : List UInt8)
    (reqlen : UInt16) (ret : UInt16) (buffer' : List UInt8) : Prop where
  length : ret = reqlen
  report : buffer'.take reqlen.toNat = padded reqlen.toNat s
  rest : buffer'.drop reqlen.toNat = buffer.drop reqlen.toNat
  agrees : reqlen = 7 → s ≠ [] → ∃ q, queued = some q ∧ buffer'.take 7 = q.report.take 7

/-- GET_REPORT for `reqlen` bytes after the run `evs` of the device. -/
def Delivers (evs : List UsbStep) (buffer : List UInt8) (reqlen : UInt16) : Prop :=
  let res := tudHidGetReportCb REPORT_ID_ADU_CMD_RSP .input buffer reqlen (usb.run evs)
  Answers (usb.run evs).response.bytes (lastQueued evs) buffer reqlen res.1 res.2

/-- The response fits the two bytes of capacity and the request, or its excess
bytes are in the buffer already. -/
def FitsCapacity (s : List UInt8) (buffer : List UInt8) (reqlen : UInt16) : Prop :=
  s.length ≤ 2 ∧ s.length ≤ reqlen.toNat ∨
    reqlen = 2 ∧ 2 < s.length ∧ (buffer.take s.length).drop 2 = s.drop 2

/-! ## The two outcomes of the callback -/

section
variable {fw : Firmware} {buffer : List UInt8} {reqlen : UInt16}

/-- Requests longer than what was reported are padded. -/
theorem getReport_padded (hok : fw.response.Ok)
    (h : min 2 fw.response.bytes.length < reqlen.toNat) :
    tudHidGetReportCb REPORT_ID_ADU_CMD_RSP .input buffer reqlen fw =
      (reqlen, memset (fw.response.bytes ++ buffer.drop fw.response.bytes.length)
        (min 2 fw.response.bytes.length) 0 (reqlen.toNat - min 2 fw.response.bytes.length)) := by
  have hret : (UInt16.ofNat (min 2 fw.response.bytes.length)).toNat =
      min 2 fw.response.bytes.length := by
    rw [UInt16.toNat_ofNat']
    omega
  have hlt : UInt16.ofNat (min 2 fw.response.bytes.length) < reqlen := by
    rw [UInt16.lt_iff_toNat_lt, hret]
    exact h
  have hsub : (reqlen - UInt16.ofNat (min 2 fw.response.bytes.length)).toNat =
      reqlen.toNat - min 2 fw.response.bytes.length := by
    rw [UInt16.toNat_sub_of_le _ _ (UInt16.le_of_lt hlt), hret]
  simp only [tudHidGetReportCb, getResponse_eq hok, and_self, if_true, hlt, hret, hsub]

theorem getReport_full (hok : fw.response.Ok)
    (h : reqlen.toNat ≤ min 2 fw.response.bytes.length) :
    tudHidGetReportCb REPORT_ID_ADU_CMD_RSP .input buffer reqlen fw =
      (UInt16.ofNat (min 2 fw.response.bytes.length),
        fw.response.bytes ++ buffer.drop fw.response.bytes.length) := by
  have hret : (UInt16.ofNat (min 2 fw.response.bytes.length)).toNat =
      min 2 fw.response.bytes.length := by
    rw [UInt16.toNat_ofNat']
    omega
  have hlt : ¬ UInt16.ofNat (min 2 fw.response.bytes.length) < reqlen := by
    rw [UInt16.lt_iff_toNat_lt, hret]
    omega
  simp only [tudHidGetReportCb, getResponse_eq hok, and_self, if_true, hlt, if_false]

end

/-! ## When the answer is right -/

section
variable {s buffer : List UInt8} {n : Nat}

/-- The padding starts behind the two bytes of capacity. -/
theorem memset_eq (hm : min 2 s.length < n) :
    memset (s ++ buffer.drop s.length) (min 2 s.length) 0 (n - min 2 s.length) =
      padded n (s.take 2) ++ (s ++ buffer.drop s.length).drop n := by
  have htake : (s ++ buffer.drop s.length).take (min 2 s.length) = s.take 2 := by
    rw [List.take_append_of_le_length (Nat.min_le_right _ _), List.take_eq_take_iff]
    omega
  have hall : (s.take 2).take n = s.take 2 := List.take_of_length_le (by simp; omega)
  have hend : min 2 s.length + (n - min 2 s.length) = n := by omega
  rw [memset, htake, padded, hall, List.length_take, hend]

theorem drop_response (h : s.length ≤ n) : (s ++ buffer.drop s.length).drop n = buffer.drop n := by
  rw [List.drop_append, List.drop_eq_nil_of_le h, List.nil_append, List.drop_drop]
  congr 1
  omega

/-- A third character of the response is lost to the padding, and would not be a zero. -/
theorem padded_take_two (hm : min 2 s.length < n) (hz : ∀ c ∈ s, c ≠ 0) :
    padded n (s.take 2) = padded n s ↔ s.length ≤ 2 := by
  refine ⟨fun h => ?_, fun h => ?_⟩
  · by_contra hlong
    have h2 := congrArg (·[2]?) h
    have hn : 2 < n := by omega
    have hs : 2 < s.length := by omega
    simp only [padded_getElem?, hn, if_true, List.getElem?_take, lt_irrefl, if_false,
      Option.getD_none, List.getElem?_eq_getElem hs, Option.getD_some, Option.some.injEq] at h2
    exact hz _ (List.getElem_mem hs) h2.symm
  · rw [List.take_of_length_le h]

theorem padded_of_le (h : n ≤ s.length) : padded n s = s.take n := by
  simp [padded, Nat.sub_eq_zero_of_le h]

/-- Behind `n`, the copied response and the buffer agree if its excess was there already. -/
theorem drop_copied_iff (hn : n ≤ s.length) :
    (s ++ buffer.drop s.length).drop n = buffer.drop n ↔
      (buffer.take s.length).drop n = s.drop n := by
  rw [drop_overwritten_iff hn, List.prefix_iff_eq_take, List.length_drop, List.drop_take, eq_comm]

variable {reqlen : UInt16}

theorem fitsCapacity_padded (hm : min 2 s.length < reqlen.toNat) :
    s.length ≤ 2 ∧ (s ++ buffer.drop s.length).drop reqlen.toNat = buffer.drop reqlen.toNat ↔
      FitsCapacity s buffer reqlen := by
  have htwo : (2 : UInt16).toNat = 2 := rfl
  refine ⟨fun h => ?_, fun h => ?_⟩
  · exact .inl ⟨h.1, by omega⟩
  · rcases h with ⟨h2, hn⟩ | ⟨rfl, h2, -⟩
    · exact ⟨h2, drop_response hn⟩
    · omega

theorem fitsCapacity_full (hn : reqlen.toNat ≤ min 2 s.length) (hroom : s.length ≤ buffer.length) :
    UInt16.ofNat (min 2 s.length) = reqlen ∧
        (s ++ buffer.drop s.length).drop reqlen.toNat = buffer.drop reqlen.toNat ↔
      FitsCapacity s buffer reqlen := by
  have hret : UInt16.ofNat (min 2 s.length) = reqlen ↔ min 2 s.length = reqlen.toNat := by
    rw [← UInt16.toNat_inj, UInt16.toNat_ofNat', Nat.mod_eq_of_lt (by omega)]
  have htwo : reqlen = 2 ↔ reqlen.toNat = 2 := by
    rw [← UInt16.toNat_inj]
    rfl
  rw [hret, drop_copied_iff (by omega), FitsCapacity, htwo]
  refine ⟨fun h => ?_, fun h => ?_⟩
  · obtain ⟨hlen, hrest⟩ := h
    by_cases h2 : s.length ≤ 2
    · exact .inl ⟨h2, by omega⟩
    · have hlen2 : reqlen.toNat = 2 := by omega
      rw [hlen2] at hrest
      exact .inr ⟨hlen2, by omega, hrest⟩
  · rcases h with ⟨h2, hn'⟩ | ⟨h2, hlong, hrest⟩
    · have htake := List.length_take_of_le hroom
      refine ⟨by omega, ?_⟩
      rw [List.drop_eq_nil_of_le hn', List.drop_eq_nil_of_le (by omega)]
    · rw [h2]
      exact ⟨by omega, hrest⟩

end

/-- The input report queued last agrees with the answer, once that is the response. -/
theorem delivers_iff_answer (evs : List UsbStep) (buffer : List UInt8) (reqlen : UInt16) :
    let res := tudHidGetReportCb REPORT_ID_ADU_CMD_RSP .input buffer reqlen (usb.run evs)
    Delivers evs buffer reqlen ↔ res.1 = reqlen ∧
      res.2.take reqlen.toNat = padded reqlen.toNat (usb.run evs).response.bytes ∧
      res.2.drop reqlen.toNat = buffer.drop reqlen.toNat := by
  intro res
  refine ⟨fun h => ?_, fun h => ?_⟩
  · exact ⟨h.length, h.report, h.rest⟩
  · obtain ⟨hlen, hrep, hrest⟩ := h
    refine ⟨hlen, hrep, hrest, ?_⟩
    rintro rfl hne
    refine ⟨_, queued_run evs hne, ?_⟩
    rw [take_padded (by decide)]
    exact hrep

/-- **The answer is right** exactly if the response fits the capacity. -/
theorem delivers_iff (evs : List UsbStep) (buffer : List UInt8) (reqlen : UInt16)
    (hbuf : max reqlen.toNat 8 ≤ buffer.length) :
    Delivers evs buffer reqlen ↔ FitsCapacity (usb.run evs).response.bytes buffer reqlen := by
  have hok := (ok_reachable (usb_reachable evs)).response
  have hroom : (usb.run evs).response.bytes.length ≤ buffer.length := by
    have := hok.bytes_length
    have := hok.len
    omega
  refine (delivers_iff_answer evs buffer reqlen).trans ?_
  by_cases hm : min 2 (usb.run evs).response.bytes.length < reqlen.toNat
  · rw [getReport_padded hok hm, memset_eq hm, ← fitsCapacity_padded hm]
    simp only [List.take_left' (padded_length _ _), List.drop_left' (padded_length _ _),
      padded_take_two hm hok.ne_zero, true_and]
  · have hn : reqlen.toNat ≤ (usb.run evs).response.bytes.length := by omega
    rw [getReport_full hok (by omega), ← fitsCapacity_full (by omega) hroom]
    simp only [List.take_append_of_le_length hn, padded_of_le hn, true_and]

/-- The single character of `RPK0` is delivered. -/
theorem delivers_single :
    Delivers [⟨⟨0, 0, 0⟩, .setReport 0 .invalid (1 :: ascii ['R', 'P', 'K', '0'] ++ [0, 0, 0]) 8
      (Vector.replicate 8 0)⟩] (List.replicate 8 255) 7 := by
  refine (delivers_iff _ _ _ (by decide)).mpr (.inl ?_)
  decide +kernel

/-- After `PK` the three digits `000` are stored, and GET_REPORT for 7 bytes delivers two. -/
theorem delivers_fails : ¬ ∀ (evs : List UsbStep) (buffer : List UInt8) (reqlen : UInt16),
    1 ≤ reqlen → max reqlen.toNat 8 ≤ buffer.length → Delivers evs buffer reqlen := by
  intro h
  have hrep := (h [⟨⟨0, 0, 0⟩, .setReport 0 .invalid (1 :: ascii ['P', 'K'] ++ [0, 0, 0, 0, 0]) 8
    (Vector.replicate 8 0)⟩] (List.replicate 8 0) 7 (by decide) (by decide)).report
  exact absurd hrep (by decide +kernel)

end Relacon.L5
