import Relacon.L3Protocol.Answers
import Relacon.L3Protocol.Syntax
import Relacon.L4Firmware.Run

/-!
# Whose response is stored

A call of the command processor should leave the response to its own command, or
none; fetching it should fill the caller's buffer and nothing else.

* `fresh_iff`: a call leaves its own answer unless the string is over-long, which
  is rejected before the response is cleared, while a response is stored. In runs
  without such calls the stored response is the answer to the last command.
* `getResponse_iff`: `AduProtocolGetResponse` keeps to the buffer unless the
  response is longer than it: the length copied is not the length reported.
-/
namespace Relacon.L4
open Relacon.Core Relacon.L1 Relacon.L2 Relacon.L3

/-! ## The response after a call -/

/-- `SKn`, `RKn`, `MKddd`, `DBn` and `WDn` have no response. -/
def Silent (s : List UInt8) : Prop :=
  (∃ a, argsOf SK s = some a) ∨ (∃ a, argsOf RK s = some a) ∨ (∃ a, argsOf MK s = some a) ∨
    (∃ a, argsOf DB s = some a ∧ a ≠ []) ∨ (∃ a, argsOf WD s = some a ∧ a ≠ [])

/-- The response after the call is the one to its own command, and none if the
call failed or the command has none. -/
structure Fresh (r : Readings) (buf : List UInt8) (len : Nat) (fw : Firmware) : Prop where
  own : (aduProtocolProcessCommand r buf len fw).2.response.bytes = answerTo r fw (cstr buf)
  failed : (aduProtocolProcessCommand r buf len fw).1 = false →
    (aduProtocolProcessCommand r buf len fw).2.response.responseBufLen = 0
  silent : Silent (cstr buf) →
    (aduProtocolProcessCommand r buf len fw).2.response.responseBufLen = 0

/-- The string passes the length test, or there is nothing to clear. -/
def Clears (buf : List UInt8) (len : Nat) (fw : Firmware) : Prop :=
  strnlen buf len ≤ MAX_CMD_STR_SIZE ∨ fw.response.responseBufLen = 0

/-- The answer to the command of a step. -/
def answered (fw : Firmware) (e : Step) : Option (List UInt8) :=
  match e.action with
  | .processCommand buf _ => some (answerTo e.readings fw (cstr buf))
  | _ => none

theorem answerTo_silent (r : Readings) (fw : Firmware) {s : List UInt8} (h : Silent s) :
    answerTo r fw s = [] := by
  unfold answerTo
  cases hd : decode s with
  | none => rfl
  | some c =>
    rcases h with ⟨a, ha⟩ | ⟨a, ha⟩ | ⟨a, ha⟩ | ⟨a, ha, hne⟩ | ⟨a, ha, hne⟩
    · have hc := decode_of_prefix (h := .setRelay) (by decide) (by decide) ha hd
      obtain ⟨n, -, rfl⟩ := Option.map_eq_some_iff.mp hc
      rfl
    · have hc := decode_of_prefix (h := .clearRelay) (by decide) (by decide) ha hd
      obtain ⟨n, -, rfl⟩ := Option.map_eq_some_iff.mp hc
      rfl
    · have hc := decode_of_prefix (h := .writeRelayPort) (by decide) (by decide) ha hd
      obtain ⟨v, -, rfl⟩ := Option.map_eq_some_iff.mp hc
      rfl
    · have hc := decode_of_prefix (h := .debounceSetting) (by decide) (by decide) ha hd
      rw [HandlerFn.decode, if_neg hne] at hc
      obtain ⟨i, -, rfl⟩ := Option.map_eq_some_iff.mp hc
      rfl
    · have hc := decode_of_prefix (h := .watchdogSetting) (by decide) (by decide) ha hd
      rw [HandlerFn.decode, if_neg hne] at hc
      obtain ⟨i, -, rfl⟩ := Option.map_eq_some_iff.mp hc
      rfl

theorem bytes_eq_nil_iff {response : Response} (h : response.Ok) :
    response.bytes = [] ↔ response.responseBufLen = 0 := by
  rw [← h.bytes_length, List.length_eq_zero_iff]

section
variable {r : Readings} {buf : List UInt8} {len : Nat} {fw : Firmware}

/-- An over-long string decodes to nothing, and leaves the response. -/
theorem overlong (r : Readings) (fw : Firmware) (h : strnlen buf len > MAX_CMD_STR_SIZE) :
    decode (cstr buf) = none ∧ (aduProtocolProcessCommand r buf len fw).1 = false ∧
      (aduProtocolProcessCommand r buf len fw).2.response = fw.response := by
  have hd := decode_overlong h
  have hfail : (aduProtocolProcessCommand r buf len fw).1 = false := by
    rw [processCommand_success, hd]
  refine ⟨hd, hfail, ?_⟩
  rw [processCommand_response_failed r buf len fw hfail, prepare, if_pos h]

theorem fresh_of_clears (hok : FwOk fw) (h : Clears buf len fw) : Fresh r buf len fw := by
  have hresp := processCommand_response r buf len fw hok.response
  have hown : (aduProtocolProcessCommand r buf len fw).2.response.bytes =
      answerTo r fw (cstr buf) := by
    rw [processCommand_bytes]
    split
    · rename_i hlong
      have hempty : fw.response.responseBufLen = 0 := h.resolve_left (by omega)
      rw [(bytes_eq_nil_iff hok.response).mpr hempty, answerTo, (overlong r fw hlong).1]
    · rfl
  refine ⟨hown, fun hfail => ?_, fun hsilent => ?_⟩
  · rw [processCommand_response_failed r buf len fw hfail, prepare]
    split
    · rename_i hlong
      exact h.resolve_left (by omega)
    · rfl
  · rw [← bytes_eq_nil_iff hresp, hown, answerTo_silent r fw hsilent]

theorem clears_of_fresh (h : Fresh r buf len fw) : Clears buf len fw := by
  by_cases hlong : strnlen buf len > MAX_CMD_STR_SIZE
  · obtain ⟨-, hfail, hresp⟩ := overlong r fw hlong
    right
    rw [← hresp]
    exact h.failed hfail
  · exact .inl (by omega)

end

theorem response_run : firmware.HistInductive
    (firmware.Always fun fw e => ∀ buf len, e.action = .processCommand buf len → Clears buf len fw)
    (fun evs fw => fw.response.bytes = (firmware.latest answered evs).getD []) where
  ok _ _ h := Machine.always_append h
  init := rfl
  step := by
    intro evs e h ih
    have hclears := (Machine.always_snoc.mp h).2
    rw [Machine.latest_snoc]
    show (step (firmware.run evs) e).response.bytes = _
    unfold step answered
    cases ha : e.action with
    | processCommand buf len =>
      exact (fresh_of_clears (ok_inductive.run evs) (hclears buf len ha)).own
    | eventCounterTask => exact ih
    | watchdogTask => exact ih

/-- **The stored response is that of the last command**, unless an over-long
string left an earlier one. -/
theorem fresh_iff (evs : List Step) :
    (∀ r buf len, Fresh r buf len (firmware.run evs) ↔ Clears buf len (firmware.run evs)) ∧
    (firmware.Always (fun fw e => ∀ buf len, e.action = .processCommand buf len → Clears buf len fw)
      evs → (firmware.run evs).response.bytes = (firmware.latest answered evs).getD []) :=
  ⟨fun _ _ _ => ⟨clears_of_fresh, fresh_of_clears (ok_inductive.run evs)⟩, response_run.run evs⟩

/-- After `PK`, the response to it is still stored when a string of six characters has failed. -/
theorem fresh_fails : ¬ ∀ fw, firmware.Reachable fw → ∀ (r : Readings) (s rest : List UInt8)
    (len : Nat), (∀ c ∈ s, c ≠ 0) → Fresh r (s ++ 0 :: rest) len fw := by
  intro h
  have hfresh := h (firmware.run [⟨⟨0, 0, 0⟩, .processCommand (ascii ['P', 'K'] ++ [0]) 3⟩])
    (firmware.reachable_run _) ⟨0, 0, 0⟩ (ascii ['M', 'K', '1', '0', '0', '0']) [] 7
    (ascii_no_nul (by decide))
  exact absurd (hfresh.failed (by decide +kernel)) (by decide +kernel)

/-! ## Fetching the response -/

/-- The first `min len response.length` bytes of the response are written, and
nothing behind them. `buf` is the memory from the destination on. -/
structure Respects (response : List UInt8) (buf : List UInt8) (len ret : Nat) (buf' : List UInt8) :
    Prop where
  length : ret = min len response.length
  written : buf'.take ret = response.take ret
  rest : buf'.drop ret = buf.drop ret

/-- **The caller's buffer is respected**, unless the response has more than `len`
bytes and the memory behind the buffer differs from them. -/
theorem getResponse_iff (evs : List Step) (buf : List UInt8) (len : Nat) :
    let response := (firmware.run evs).response
    let res := aduProtocolGetResponse buf len response
    Respects response.bytes buf len res.1 res.2 ↔
      response.bytes.length ≤ len ∨ response.bytes.drop len <+: buf.drop len := by
  intro response res
  have hres : res = _ := getResponse_eq (ok_inductive.run evs).response buf len
  rw [hres]
  by_cases hfits : response.bytes.length ≤ len
  · refine iff_of_true ⟨rfl, ?_, ?_⟩ (.inl hfits)
    · rw [Nat.min_eq_right hfits, List.take_left, List.take_length]
    · rw [Nat.min_eq_right hfits, List.drop_left]
  · have hle : len ≤ response.bytes.length := by omega
    rw [Nat.min_eq_left hle, ← drop_overwritten_iff hle]
    refine ⟨fun h => .inr h.rest, fun h => ⟨(Nat.min_eq_left hle).symm, ?_, ?_⟩⟩
    · exact List.take_append_of_le_length hle
    · exact h.resolve_left hfits

/-- The third digit of the response to `PK` is written behind a buffer of two bytes. -/
theorem getResponse_fails : ¬ ∀ (evs : List Step) (buf : List UInt8) (len : Nat), len ≤ buf.length →
    let res := aduProtocolGetResponse buf len (firmware.run evs).response
    Respects (firmware.run evs).response.bytes buf len res.1 res.2 := by
  intro h
  have hrest := (h [⟨⟨0, 0, 0⟩, .processCommand (ascii ['P', 'K'] ++ [0]) 3⟩] [255, 255, 255, 255] 2
    (by decide)).rest
  exact absurd hrest (by decide +kernel)

end Relacon.L4
