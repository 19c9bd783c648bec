import Relacon.Core.PrefixTable
import Relacon.L3Protocol.Effects

/-!
# Which handler a command reaches

The search loop calls the handler of the first entry whose prefix begins the
command string, up to case. `RP` begins `RPK`, so what is called depends on the
order of the table: `entries_ordered` is what the note on the table asks for, and
with it the first match is the longest one. `processCommand_longest`: at most one
handler is called, the one with the longest matching prefix, with a pointer to
what follows the prefix; none is called exactly if no prefix matches. The calls are
all that the command processor does, apart from the length test and the kick.
-/
namespace Relacon.L3
open Relacon.Core Relacon.L1 Relacon.L2

/-- The prefix as it is compared, without the case of letters. -/
def CommandProcessorEntry.key (e : CommandProcessorEntry) : List UInt8 :=
  e.commandPrefix.map toupper

/-- The handler calls of one run of `AduProtocolProcessCommand`, each with its
argument pointer. -/
def handlerCalls (r : Readings) (buf : List UInt8) (len : Nat) (fw : Firmware) :
    List (HandlerFn × List UInt8) :=
  if strnlen buf len > MAX_CMD_STR_SIZE then []
  else (search r { fw with response := fw.response.clear } buf).calls

/-- No prefix begins a later one.
mirrors src/AduProtocol.c:701-703 -/
theorem entries_ordered : PrefixOrdered CommandProcessorEntry.key ENTRIES := by decide

theorem matches_key (e : CommandProcessorEntry) (s : List UInt8) :
    e.matches s = decide (e.key <+: s.map toupper) := by
  rw [CommandProcessorEntry.matches, CommandProcessorEntry.key, CommandProcessorEntry.commandPrefixLen,
    Bool.eq_iff_iff, beq_iff_eq, decide_eq_true_iff, List.prefix_iff_eq_take, List.map_take,
    List.length_map, eq_comm]

theorem find_key (p : List UInt8) :
    ENTRIES.find? (·.matches p) = ENTRIES.find? fun e => decide (e.key <+: (cstr p).map toupper) := by
  rw [← find_cstr]
  exact List.find?_congr fun e _ => matches_key e (cstr p)

theorem handlerCalls_eq (r : Readings) (buf : List UInt8) (len : Nat) (fw : Firmware)
    (hlen : ¬ strnlen buf len > MAX_CMD_STR_SIZE) :
    handlerCalls r buf len fw =
      match ENTRIES.find? fun e => decide (e.key <+: (cstr buf).map toupper) with
      | none => []
      | some e => [(e.handler, buf.drop e.commandPrefixLen)] := by
  rw [handlerCalls, if_neg hlen, search_eq, searchResult, find_key]
  split <;> simp [*]

/-- What the command processor does is what the calls do, one after the other. -/
theorem processCommand_calls (r : Readings) (buf : List UInt8) (len : Nat) (fw : Firmware) :
    aduProtocolProcessCommand r buf len fw =
      let res := (handlerCalls r buf len fw).foldl (fun res call => call.1.call r res.2 call.2)
        (false, prepare buf len fw)
      (res.1, { res.2 with watchdog := watchdogKick r res.2.watchdog }) := by
  by_cases hlen : strnlen buf len > MAX_CMD_STR_SIZE
  · simp only [aduProtocolProcessCommand, handlerCalls, prepare, if_pos hlen, List.foldl_nil]
  · simp only [aduProtocolProcessCommand, handlerCalls, prepare, if_neg hlen, search_eq, searchResult]
    split <;> rfl

section
variable (r : Readings) (fw : Firmware) (len : Nat) {s : List UInt8} (hs : ∀ c ∈ s, c ≠ 0)
  (hlen : s.length ≤ MAX_CMD_STR_SIZE) (rest : List UInt8)
include hs hlen

theorem handlerCalls_short :
    handlerCalls r (s ++ 0 :: rest) len fw =
      match ENTRIES.find? fun e => decide (e.key <+: s.map toupper) with
      | none => []
      | some e => [(e.handler, (s ++ 0 :: rest).drop e.commandPrefixLen)] := by
  have hshort : ¬ strnlen (s ++ 0 :: rest) len > MAX_CMD_STR_SIZE := by
    rw [strnlen_eq_min, strlen, cstr_append_nul hs]
    omega
  rw [handlerCalls_eq r _ len fw hshort, cstr_append_nul hs]

theorem handlerCalls_none (hnone : ∀ e ∈ ENTRIES, ¬ e.key <+: s.map toupper) :
    handlerCalls r (s ++ 0 :: rest) len fw = [] := by
  rw [handlerCalls_short r fw len hs hlen, find_none_iff.mpr hnone]

theorem handlerCalls_longest {e : CommandProcessorEntry}
    (hl : LongestMatch CommandProcessorEntry.key ENTRIES (s.map toupper) e) :
    handlerCalls r (s ++ 0 :: rest) len fw =
      [(e.handler, s.drop e.commandPrefixLen ++ 0 :: rest)] := by
  have hkey : e.commandPrefixLen ≤ s.length := by
    have := hl.begins.length_le
    simpa [CommandProcessorEntry.key, CommandProcessorEntry.commandPrefixLen] using this
  rw [handlerCalls_short r fw len hs hlen, (find_longest_iff entries_ordered).mpr hl]
  simp only [List.drop_append_of_le_length hkey]

end

/-- **First match is longest match.** -/
theorem processCommand_longest (r : Readings) (fw : Firmware) (len : Nat) {s : List UInt8}
    (hs : ∀ c ∈ s, c ≠ 0) (hlen : s.length ≤ MAX_CMD_STR_SIZE) (rest : List UInt8) :
    let calls := handlerCalls r (s ++ 0 :: rest) len fw
    (aduProtocolProcessCommand r (s ++ 0 :: rest) len fw =
      let res := calls.foldl (fun res call => call.1.call r res.2 call.2)
        (false, prepare (s ++ 0 :: rest) len fw)
      (res.1, { res.2 with watchdog := watchdogKick r res.2.watchdog })) ∧
    calls.length ≤ 1 ∧
    (calls = [] ↔ ∀ e ∈ ENTRIES, ¬ e.key <+: s.map toupper) ∧
    ∀ h args, (h, args) ∈ calls ↔
      ∃ e, LongestMatch CommandProcessorEntry.key ENTRIES (s.map toupper) e ∧ e.handler = h ∧
        args = s.drop e.commandPrefixLen ++ 0 :: rest := by
  intro calls
  refine ⟨processCommand_calls r _ len fw, ?_⟩
  rcases longest_or_none entries_ordered (s.map toupper) with ⟨e, hl⟩ | hnone
  · have hcalls : calls = _ := handlerCalls_longest r fw len hs hlen rest hl
    rw [hcalls]
    refine ⟨by simp, ?_, ?_⟩
    · exact iff_of_false (List.cons_ne_nil _ _) fun hnone => hnone e hl.mem hl.begins
    · intro h args
      rw [List.mem_singleton, Prod.mk.injEq]
      refine ⟨fun hx => ⟨e, hl, hx.1.symm, hx.2⟩, fun hx => ?_⟩
      obtain ⟨e', hl', rfl, ha⟩ := hx
      obtain rfl := hl'.unique hl
      exact ⟨rfl, ha⟩
  · have hcalls : calls = [] := handlerCalls_none r fw len hs hlen rest hnone
    rw [hcalls]
    refine ⟨by simp, by simpa using hnone, ?_⟩
    intro h args
    refine iff_of_false (by simp) ?_
    rintro ⟨e, hl, -⟩
    exact hnone e hl.mem hl.begins

/-- `rpk3` reaches the handler of `RPK`, not the one of `RP`. -/
theorem processCommand_longest_rpk :
    let fw : Firmware := ⟨0, EventCounters.zero, ⟨0, 0⟩, ⟨Vector.replicate _ 0, 0⟩⟩
    (HandlerFn.readSingleRelay, ascii ['3'] ++ 0 :: [9]) ∈
      handlerCalls ⟨0, 0, 0⟩ (ascii ['r', 'p', 'k', '3'] ++ 0 :: [9]) 7 fw := by
  intro fw
  have hl : LongestMatch CommandProcessorEntry.key ENTRIES
      ((ascii ['r', 'p', 'k', '3']).map toupper) ⟨ascii ['R', 'P', 'K'], .readSingleRelay⟩ :=
    (find_longest_iff entries_ordered).mp (by decide)
  have hcalls := processCommand_longest ⟨0, 0, 0⟩ fw 7 (s := ascii ['r', 'p', 'k', '3'])
    (ascii_no_nul (by decide)) (by decide) [9]
  obtain ⟨-, -, -, hmem⟩ := hcalls
  exact (hmem _ _).mpr ⟨_, hl, rfl, rfl⟩

end Relacon.L3
