import Relacon.L3Protocol.Spelling
import Relacon.L6System.DeviceRefinement

/-!
# A host talking to the device

A host program writes each command with `render` into an output report, on the
control endpoint or on the interrupt OUT endpoint, and reads the number off the
input report that comes back with `readReply`. `HostTurn` is a turn of the main
loop in which the callbacks are such requests.

`session_answered`: as long as the turns are short enough, the reports that the
device queues are, in order, one for each command that has an answer, and the
numbers read off them are the answers of the abstract device. The strings, the
padding, the digits and the stale bytes of the buffers are gone from the right
hand side.
-/
namespace Relacon.L6
open Relacon.Core Relacon.L1 Relacon.L2 Relacon.L3 Relacon.L4 Relacon.L5

/-! ## Requests -/

/-- A command on its way to the device. `stale` is what the receive buffer holds
behind the report, `rspBuf` what is on the stack for the response. -/
structure Request where
  command : Command
  control : Bool
  stale : List UInt8
  rspBuf : Vector UInt8 CFG_TUD_HID_EP_BUFSIZE

/-- SET_REPORT carries the report ID in its setup packet, the OUT endpoint in the
first byte. -/
def Request.callback (q : Request) : Callback :=
  let payload := padded REPORT_COUNT (render q.command)
  if q.control then
    .setReport REPORT_ID_ADU_CMD_RSP .output (payload ++ q.stale) (UInt16.ofNat REPORT_COUNT) q.rspBuf
  else
    .setReport 0 .invalid (REPORT_ID_ADU_CMD_RSP :: payload ++ q.stale)
      (UInt16.ofNat CFG_TUD_HID_EP_BUFSIZE) q.rspBuf

structure HostTurn where
  requests : List (Timed Request)
  events : Timed Unit
  watchdog : Timed Unit

def HostTurn.iteration (turn : HostTurn) : Iteration where
  callbacks := turn.requests.map fun q => { q with action := q.action.callback }
  events := turn.events
  watchdog := turn.watchdog

/-- The turn as the device sees it. -/
def HostTurn.deviceEvents (turn : HostTurn) : List DeviceEv :=
  turn.requests.map (fun q => .command q.time q.inputs (some q.action.command)) ++
    [.sample turn.events.time turn.events.inputs, .check turn.watchdog.time]

theorem padded_append_nul {n : Nat} {s : List UInt8} (h : s.length < n) :
    ∃ zs, padded n s = s ++ 0 :: zs := by
  refine ⟨List.replicate (n - s.length - 1) 0, ?_⟩
  rw [padded, List.take_of_length_le h.le, ← List.replicate_succ]
  congr 2
  omega

/-- The firmware reads the command that the host wrote. -/
theorem deviceEv_request (q : Timed Request) :
    deviceEv ({ q with action := q.action.callback } : Timed Callback).callback =
      .command q.time q.inputs (some q.action.command) := by
  obtain ⟨t, a, b, ⟨c, control, stale, rspBuf⟩⟩ := q
  have hlen : (render c).length < REPORT_COUNT := (render_length c).trans_lt (by decide)
  obtain ⟨zs, hpad⟩ := padded_append_nul hlen
  have hread : ∀ rest, decode (cstr (padded REPORT_COUNT (render c) ++ rest)) = some c := by
    intro rest
    rw [hpad, List.append_assoc, List.cons_append, cstr_append_nul (render_no_nul c), decode_render]
  cases control with
  | true =>
    have hc := hread stale
    simp only [deviceEv, Timed.callback, Request.callback, Callback.action, commandOf, if_true]
    rw [hc]
    rfl
  | false =>
    have hc := hread stale
    simp only [deviceEv, Timed.callback, Request.callback, Callback.action, commandOf]
    exact congrArg _ hc

theorem deviceEvents_eq (turn : HostTurn) : turn.iteration.steps.map deviceEv = turn.deviceEvents := by
  have hcalls : (turn.iteration.callbacks.map Timed.callback).map deviceEv =
      turn.requests.map fun q => .command q.time q.inputs (some q.action.command) := by
    simp only [HostTurn.iteration, List.map_map]
    exact List.map_congr_left fun q _ => deviceEv_request q
  rw [Iteration.steps, HostTurn.deviceEvents, List.map_append, hcalls]
  rfl

/-! ## Replies -/

/-- The number in an input report, as a host reads it after its command. -/
def readReply (c : Command) (queued : InReport) : Option Nat :=
  if queued.reportId = REPORT_ID_ADU_CMD_RSP then
    some (ofNumeral (replyFormat c).1 ((queued.report.take REPORT_COUNT).rdropWhile (· == 0)))
  else none

/-- Every answer fits its field. -/
theorem answer_lt {d : Device} {ins : Fin 8 → Bool} {c : Command} {v : Nat}
    (h : d.answer ins c = some v) : v < (replyFormat c).1 ^ (replyFormat c).2 := by
  have hbit : ∀ b : Bool, b.toNat < 2 ^ 1 := fun b => by cases b <;> decide
  have hport : ∀ f : Fin 4 → Bool, Nat.ofBits f < 2 ^ 4 := Nat.ofBits_lt_two_pow
  have hbyte : ∀ f : Fin 8 → Bool, Nat.ofBits f < 2 ^ 8 := Nat.ofBits_lt_two_pow
  cases c with
  | readSingleRelay n | readInputLine y n => cases h; exact hbit _
  | readInputPort y => cases h; exact hport _
  | readInputPortDecimal y => cases h; exact (hport _).trans (show 2 ^ 4 < 10 ^ 2 by decide)
  | readRelayPort | readInputs => cases h; exact (hbyte _).trans (show 2 ^ 8 < 10 ^ 3 by decide)
  | readEventCounter n | readAndResetEventCounter n =>
    cases h
    exact (Nat.mod_lt _ (by decide)).trans (show 2 ^ 16 < 10 ^ 5 by decide)
  | getDebounce => cases h; exact d.debounce.isLt.trans (show 3 < 10 ^ 1 by decide)
  | getWatchdog => cases h; exact d.watchdog.isLt.trans (show 4 < 10 ^ 1 by decide)
  | setRelay _ | clearRelay _ | writeRelayPort _ | setDebounce _ | setWatchdog _ => cases h

theorem replyFormat_le (c : Command) :
    2 ≤ (replyFormat c).1 ∧ (replyFormat c).1 ≤ 10 ∧ (replyFormat c).2 ≤ 5 := by
  cases c <;> simp [replyFormat]

/-- A number that fits its field is read back. -/
theorem readReply_encode {c : Command} {v : Nat} (h : v < (replyFormat c).1 ^ (replyFormat c).2) :
    readReply c (encodeReply (c, v)) = some v := by
  obtain ⟨hlo, hhi, hwidth⟩ := replyFormat_le c
  have hshort : ShortDigits (numeral (replyFormat c).1 (replyFormat c).2 v) :=
    ⟨by rwa [numeral_length], numeral_isdigit (by omega) hhi _ _⟩
  obtain ⟨-, -, hstrip⟩ := padded_decodes hshort
  rw [readReply, encodeReply, if_pos rfl, hstrip, ofNumeral_numeral (by omega) hhi, Nat.mod_eq_of_lt h]

/-! ## Sessions -/

/-- The replies of the device over a run, each with its command. -/
def replies (evs : List DeviceEv) : List (Command × Nat) :=
  (device.trace Device.reply evs).reduceOption

def DeviceEv.request : DeviceEv → Option Command
  | .command _ _ c => c
  | _ => none

theorem reply_command (d : Device) (e : DeviceEv) :
    (d.reply e).map Prod.fst = e.request.filter hasAnswer := by
  cases e with
  | command t ins c =>
    cases c with
    | none => rfl
    | some c =>
      have hsome := answer_isSome d ins c
      rw [Device.reply, DeviceEv.request, Option.bind_some, Option.map_map, Option.filter_some, ← hsome]
      cases d.answer ins c <;> rfl
  | _ => rfl

theorem reply_lt {d : Device} {e : DeviceEv} {r : Command × Nat} (h : d.reply e = some r) :
    r.2 < (replyFormat r.1).1 ^ (replyFormat r.1).2 := by
  cases e with
  | command t ins c =>
    obtain ⟨c', rfl, hc⟩ := Option.bind_eq_some_iff.mp h
    obtain ⟨v, hv, rfl⟩ := Option.map_eq_some_iff.mp hc
    exact answer_lt hv
  | _ => cases h

theorem replies_snoc (evs : List DeviceEv) (e : DeviceEv) :
    replies (evs ++ [e]) = replies evs ++ ((device.run evs).reply e).toList := by
  rw [replies, Machine.trace_snoc, List.reduceOption_append, List.reduceOption_singleton]
  rfl

/-- The commands that are answered, in order. -/
theorem replies_commands (evs : List DeviceEv) :
    (replies evs).map Prod.fst = (evs.filterMap DeviceEv.request).filter hasAnswer := by
  induction evs using List.reverseRecOn with
  | nil => rfl
  | append_singleton h e ih =>
    have hcmd := congrArg Option.toList (reply_command (device.run h) e)
    rw [replies_snoc, List.map_append, ih, List.filterMap_append, List.filter_append]
    congr 1
    rw [Option.toList_map] at hcmd
    rw [hcmd]
    cases hr : e.request with
    | none => simp [hr]
    | some c => by_cases hc : hasAnswer c = true <;> simp [hr, hc, Option.filter]

theorem replies_lt (evs : List DeviceEv) :
    ∀ r ∈ replies evs, r.2 < (replyFormat r.1).1 ^ (replyFormat r.1).2 := by
  induction evs using List.reverseRecOn with
  | nil => exact nofun
  | append_singleton h e ih =>
    intro r hr
    rw [replies_snoc, List.mem_append, Option.mem_toList] at hr
    exact hr.elim (ih r) reply_lt

/-- The reports that the main loop queues carry the replies of the device. -/
theorem mainLoop_replies {start : Nat} {its : List Iteration} (h : LoopTimed start its) :
    (mainLoop.trace Iteration.reports its).flatten =
      (replies ((its.flatMap Iteration.steps).map deviceEv)).map encodeReply := by
  obtain ⟨-, hshown⟩ := (refines start).run _ (paced_of_loopTimed h)
  have hqueues := congrArg (List.map Shown.queued) hshown
  rw [← Machine.trace_map, ← Machine.trace_map] at hqueues
  have hencode := device.trace_map Device.reply (Option.map encodeReply)
    ((its.flatMap Iteration.steps).map deviceEv)
  rw [mainLoop_reports, replies, ← List.reduceOption_map, ← hencode]
  exact congrArg List.reduceOption hqueues

/-- **A session is answered**: what a host reads are the numbers of the device. -/
theorem session_answered (start : Nat) (turns : List HostTurn)
    (h : LoopTimed start (turns.map HostTurn.iteration)) :
    let asked := (turns.flatMap fun turn => turn.requests.map (·.action.command)).filter hasAnswer
    let queued := (mainLoop.trace Iteration.reports (turns.map HostTurn.iteration)).flatten
    let replies := replies (turns.flatMap HostTurn.deviceEvents)
    replies.map Prod.fst = asked ∧ queued = replies.map encodeReply ∧
      List.zipWith readReply asked queued = replies.map fun r => some r.2 := by
  intro asked queued replies
  have hevents : ((turns.map HostTurn.iteration).flatMap Iteration.steps).map deviceEv =
      turns.flatMap HostTurn.deviceEvents := by
    rw [List.flatMap_map, List.map_flatMap, funext deviceEvents_eq]
  have hqueued : queued = replies.map encodeReply := by
    have hq := mainLoop_replies h
    rwa [hevents] at hq
  have hasked : replies.map Prod.fst = asked := by
    have hsent : (turns.flatMap HostTurn.deviceEvents).filterMap DeviceEv.request =
        turns.flatMap fun turn => turn.requests.map (·.action.command) := by
      rw [List.filterMap_flatMap]
      congr 1
      funext turn
      simp [HostTurn.deviceEvents, DeviceEv.request, List.filterMap_map, Function.comp_def]
    have hcmds := replies_commands (turns.flatMap HostTurn.deviceEvents)
    rwa [hsent] at hcmds
  refine ⟨hasked, hqueued, ?_⟩
  rw [← hasked, hqueued, List.zipWith_map, List.zipWith_self]
  exact List.map_congr_left fun r hr => readReply_encode (replies_lt _ r hr)

/-- Relay 3 is closed and read back in the same turn, over the OUT endpoint. -/
def relayTurn : HostTurn where
  requests :=
    [⟨10, 0, 0, ⟨.setRelay 3, true, [], .replicate _ 255⟩⟩,
      ⟨20, 0, 0, ⟨.readSingleRelay 3, false, [255], .replicate _ 255⟩⟩]
  events := ⟨30, 0, 0, ()⟩
  watchdog := ⟨40, 0, 0, ()⟩

theorem session_answered_relayTurn :
    LoopTimed 5 ([relayTurn].map HostTurn.iteration) ∧
      List.zipWith readReply [.readSingleRelay 3]
        (mainLoop.trace Iteration.reports ([relayTurn].map HostTurn.iteration)).flatten = [some 1] := by
  have h : LoopTimed 5 ([relayTurn].map HostTurn.iteration) := by decide
  exact ⟨h, (session_answered 5 [relayTurn] h).2.2⟩

end Relacon.L6
