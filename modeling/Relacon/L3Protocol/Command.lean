import Mathlib.Data.List.Find
import Relacon.L3Protocol.Handlers

/-!
# Commands: what the processor accepts and what it then does

`Command` lists the operations of the device. `decode` reads one off a command
string exactly as the prefix table and the handlers do, and `exec` is its effect
on the firmware. `processCommand_eq` refines `AduProtocolProcessCommand` to
"decode, then execute": every later result about commands is a case analysis on
`Command`, never on strings and handlers.

`decode` follows the code, so it accepts more than the documented grammar
(`Relacon.L3Protocol.Grammar` compares the two):

* `byteArg` is the argument of `MK`: `strtoul` also takes blanks, signs and the
  empty string;
* `settingArg` is the argument of `DB` and `WD`: a character that is no digit
  selects setting 0.
-/
namespace Relacon.L3
open Relacon.Core Relacon.L1 Relacon.L2

inductive Port where
  | a | b
  deriving DecidableEq, Repr

inductive Command where
  | setRelay (n : Fin 8)
  | clearRelay (n : Fin 8)
  | writeRelayPort (v : UInt8)
  | readSingleRelay (n : Fin 8)
  | readRelayPort
  | readInputLine (y : Port) (n : Fin 4)
  | readInputPort (y : Port)
  | readInputPortDecimal (y : Port)
  | readInputs
  | readEventCounter (n : Fin 8)
  | readAndResetEventCounter (n : Fin 8)
  | getDebounce
  | setDebounce (i : Fin 3)
  | getWatchdog
  | setWatchdog (i : Fin 4)
  deriving DecidableEq, Repr

/-! ## Arguments -/

/-- One decimal digit below `n`. -/
def indexArg (n : Nat) : List UInt8 → Option (Fin n)
  | [c] => if h : isdigit c = true ∧ digitVal c < n then some ⟨digitVal c, h.2⟩ else none
  | _ => none

/-- One character; what is no digit counts as 0. -/
def settingArg (n : Nat) : List UInt8 → Option (Fin n)
  | [c] =>
    let v := if isdigit c then digitVal c else 0
    if h : v < n then some ⟨v, h⟩ else none
  | _ => none

/-- At most three characters that `strtoul` consumes, with a value that fits a byte. -/
def byteArg (a : List UInt8) : Option UInt8 :=
  if a.length ≤ 3 ∧ (strtoul a).2 = [] ∧ (strtoul a).1 ≤ 255 then some (strtoul a).1.toUInt8
  else none

def portArg (c : UInt8) : Option Port :=
  if toupper c = 'A'.toUInt8 then some .a
  else if toupper c = 'B'.toUInt8 then some .b
  else none

/-- The command a handler recognises in its argument string. -/
def HandlerFn.decode (a : List UInt8) : HandlerFn → Option Command
  | .setRelay => (indexArg 8 a).map .setRelay
  | .clearRelay => (indexArg 8 a).map .clearRelay
  | .writeRelayPort => (byteArg a).map .writeRelayPort
  | .readSingleRelay => (indexArg 8 a).map .readSingleRelay
  | .readRelayPortDecimal => if a = [] then some .readRelayPort else none
  | .readSinglePort =>
    match a with
    | [y] => (portArg y).map .readInputPort
    | [y, n] => (portArg y).bind fun y => (indexArg 4 [n]).map (.readInputLine y)
    | _ => none
  | .readSinglePortDecimal =>
    match a with
    | [y] => (portArg y).map .readInputPortDecimal
    | _ => none
  | .readCombinedPortsDecimal => if a = [] then some .readInputs else none
  | .readEventCounter => (indexArg 8 a).map .readEventCounter
  | .readAndResetEventCounter => (indexArg 8 a).map .readAndResetEventCounter
  | .debounceSetting => if a = [] then some .getDebounce else (settingArg 3 a).map .setDebounce
  | .watchdogSetting => if a = [] then some .getWatchdog else (settingArg 4 a).map .setWatchdog

/-- `e` is the entry for the command string `s`, up to case. -/
def CommandProcessorEntry.matches (e : CommandProcessorEntry) (s : List UInt8) : Bool :=
  (s.take e.commandPrefixLen).map toupper == e.commandPrefix.map toupper

def decode (s : List UInt8) : Option Command :=
  (ENTRIES.find? (·.matches s)).bind fun e => e.handler.decode (s.drop e.commandPrefixLen)

/-! ## Effects -/

def Port.value (r : Readings) : Port → UInt8
  | .a => (boardReadDigitalInputs r &&& 0x0f) >>> 0
  | .b => (boardReadDigitalInputs r &&& 0xf0) >>> 4

def bitByte (b : Bool) : UInt8 := if b then 1 else 0

def exec (r : Readings) (fw : Firmware) : Command → Bool × Firmware
  | .setRelay n => (true, fw.writeRelays (setBit fw.relays n))
  | .clearRelay n => (true, fw.writeRelays (clearBit fw.relays n))
  | .writeRelayPort v => (true, fw.writeRelays v)
  | .readSingleRelay n =>
    (true, { fw with response := writeResponseBinary (bitByte (bitSet fw.relays n)) 1 fw.response })
  | .readRelayPort => (true, { fw with response := writeResponseDecimal fw.relays.toUInt16 3 fw.response })
  | .readInputLine y n =>
    (true, { fw with response := writeResponseBinary (bitByte (bitSet (y.value r) n)) 1 fw.response })
  | .readInputPort y => (true, { fw with response := writeResponseBinary (y.value r) 4 fw.response })
  | .readInputPortDecimal y =>
    (true, { fw with response := writeResponseDecimal (y.value r).toUInt16 2 fw.response })
  | .readInputs =>
    (true, { fw with
      response := writeResponseDecimal (boardReadDigitalInputs r).toUInt16 3 fw.response })
  | .readEventCounter n => (true, readEventCounter false (UInt32.ofNat n) fw)
  | .readAndResetEventCounter n => (true, readEventCounter true (UInt32.ofNat n) fw)
  | .getDebounce => handlerQuery DEBOUNCE_TIMES_US fw.events.debounceTimeUs fw
  | .setDebounce i =>
    (true, { fw with events := eventCounterDebounceTimeSet (debounceTimeOf i) fw.events })
  | .getWatchdog => handlerQuery WATCHDOG_TIMES_US fw.watchdog.watchdogTimeoutPeriodUs fw
  | .setWatchdog i =>
    (false, { fw with watchdog := watchdogTimeoutSet (watchdogTimeOf i) fw.watchdog })

/-- Execute what was decoded; a string that decodes to nothing fails and changes nothing. -/
def execOpt (r : Readings) (fw : Firmware) : Option Command → Bool × Firmware
  | some c => exec r fw c
  | none => (false, fw)

/-! ## Every handler decodes and executes -/

/-- A one-character argument: what `strtoul` returns, in terms of the character. -/
theorem strtoul_one {p : List UInt8} {c : UInt8} (h : cstr p = [c]) :
    (strtoul p).1 = UInt32.ofNat (if isdigit c then digitVal c else 0) ∧
      (deref (strtoul p).2 = 0 ↔ isdigit c = true) := by
  have hs := strtoul_cstr p
  rw [h, strtoul_singleton] at hs
  rw [deref_eq_zero_iff]
  by_cases hd : isdigit c = true
  · rw [if_pos hd, Prod.mk.injEq] at hs
    simp [hd, ← hs.1, ← hs.2]
  · rw [if_neg hd, Prod.mk.injEq] at hs
    simp [hd, ← hs.1, ← hs.2]

theorem strlen_eq_one_iff (p : List UInt8) : strlen p = 1 ↔ ∃ c, cstr p = [c] :=
  List.length_eq_one_iff

theorem ofNat_lt_iff {v n : Nat} (hv : v < 10) (hn : n < 10) :
    UInt32.ofNat v < UInt32.ofNat n ↔ v < n := by
  rw [UInt32.lt_iff_toNat_lt, UInt32.toNat_ofNat', UInt32.toNat_ofNat']
  omega

theorem handlerIndexed_eq {n : Nat} (hn : n < 10) (body : UInt32 → Firmware → Firmware)
    (fw : Firmware) (p : List UInt8) :
    handlerIndexed (UInt32.ofNat n) body fw p =
      match indexArg n (cstr p) with
      | some i => (true, body (UInt32.ofNat i) fw)
      | none => (false, fw) := by
  unfold handlerIndexed
  by_cases h : strlen p = 1
  · obtain ⟨c, hc⟩ := (strlen_eq_one_iff p).mp h
    obtain ⟨hv, he⟩ := strtoul_one hc
    simp only [h, if_true, he, hv, hc, indexArg]
    by_cases hd : isdigit c = true
    · simp only [hd, if_true, true_and, ofNat_lt_iff (digitVal_lt hd) hn]
      split <;> rfl
    · simp [hd]
  · have hne : ∀ c, cstr p ≠ [c] := fun c hc => h ((strlen_eq_one_iff p).mpr ⟨c, hc⟩)
    rw [if_neg h]
    unfold indexArg
    split
    · rename_i heq
      split at heq
      · rename_i c hc
        exact absurd hc (hne c)
      · cases heq
    · rfl

theorem setter_eq {α : Type} {n : Nat} {p : List UInt8} {c : UInt8} (hc : cstr p = [c])
    (set : (v : Nat) → v < n → α) (fail : α) :
    (if h : (strtoul p).1.toNat < n then set (strtoul p).1.toNat h else fail) =
      match settingArg n (cstr p) with
      | some i => set i i.isLt
      | none => fail := by
  have hv : (strtoul p).1.toNat = if isdigit c then digitVal c else 0 := by
    rw [(strtoul_one hc).1, UInt32.toNat_ofNat']
    split
    · rename_i hd
      have := digitVal_lt hd
      omega
    · rfl
  rw [hc]
  simp only [settingArg, hv]
  by_cases hlt : (if isdigit c = true then digitVal c else 0) < n
  · rw [dif_pos hlt, dif_pos hlt]
  · rw [dif_neg hlt, dif_neg hlt]

theorem getInputPortValue_eq (r : Readings) (c : UInt8) :
    getInputPortValue r c = match portArg c with
      | some y => y.value r
      | none => 0xff := by
  unfold getInputPortValue charToInputPort portArg
  by_cases ha : toupper c = 'A'.toUInt8
  · simp only [ha, if_true, Port.value]
  · by_cases hb : toupper c = 'B'.toUInt8
    · simp only [hb, if_true, if_neg (show ('B'.toUInt8 : UInt8) ≠ 'A'.toUInt8 by decide), Port.value]
    · simp only [ha, hb, if_false]

/-- Port A is the low half of the inputs, port B the high half. -/
theorem Port.value_toNat (r : Readings) (y : Port) : (y.value r).toNat =
    match y with
    | .a => (boardReadDigitalInputs r).toNat % 16
    | .b => (boardReadDigitalInputs r).toNat / 16 := by
  have hlow : ∀ x : Nat, x &&& 15 = x % 16 := fun x => Nat.and_two_pow_sub_one_eq_mod x 4
  have hlt := (boardReadDigitalInputs r).toNat_lt
  cases y with
  | a =>
    simp only [Port.value, UInt8.toNat_shiftRight, UInt8.toNat_and, UInt8.reduceToNat]
    exact hlow _
  | b =>
    have hhigh : 0xf0 >>> 4 = 15 := rfl
    have hpow : 2 ^ (4 % 8) = 16 := rfl
    simp only [Port.value, UInt8.toNat_shiftRight, UInt8.toNat_and, UInt8.reduceToNat]
    rw [Nat.shiftRight_and_distrib, hhigh, hlow, Nat.shiftRight_eq_div_pow, hpow]
    omega

/-- A port value is never the failure marker. -/
theorem Port.value_lt (r : Readings) (y : Port) : (y.value r).toNat < 16 := by
  have := (boardReadDigitalInputs r).toNat_lt
  rw [Port.value_toNat]
  cases y <;> simp only <;> omega

theorem Port.value_ne (r : Readings) (y : Port) : y.value r ≠ 0xff := by
  intro h
  have := y.value_lt r
  rw [h] at this
  exact absurd this (by decide)

theorem handlerReadSinglePort_eq (r : Readings) (fw : Firmware) (p : List UInt8) :
    handlerReadSinglePort r fw p = execOpt r fw (HandlerFn.readSinglePort.decode (cstr p)) := by
  unfold handlerReadSinglePort
  simp only [strlen, HandlerFn.decode, ← deref_cstr p]
  have htail := @cstr_tail p
  rcases hp : cstr p with _ | ⟨y, _ | ⟨n, _ | ⟨x, t⟩⟩⟩
  · rfl
  · simp only [deref_cons, getInputPortValue_eq]
    cases hy : portArg y with
    | none => rfl
    | some port =>
      have := port.value_ne r
      simp [this, execOpt, exec]
      rfl
  · have hn : cstr p.tail = [n] := by rw [htail (by simp [hp]), hp]; rfl
    obtain ⟨hv, he⟩ := strtoul_one hn
    simp only [deref_cons, getInputPortValue_eq]
    cases hy : portArg y with
    | none => rfl
    | some port =>
      have hne := port.value_ne r
      have hpins : INPUT_PORT_NUM_PINS = UInt32.ofNat 4 := rfl
      simp only [List.length_cons, List.length_nil, ne_eq, hne, not_false_eq_true, if_true, he, hv,
        hpins, Option.bind_some, indexArg]
      by_cases hd : isdigit n = true
      · have hlt := digitVal_lt hd
        have hnat : (UInt32.ofNat (digitVal n)).toNat = digitVal n := by
          rw [UInt32.toNat_ofNat']; omega
        simp only [hd, if_true, true_and, ofNat_lt_iff hlt (show 4 < 10 by decide), hnat]
        by_cases h4 : digitVal n < 4 <;> simp [h4, execOpt, exec, bitByte]
      · simp [hd, execOpt]
  · simp [execOpt]

theorem handlerReadSinglePortDecimal_eq (r : Readings) (fw : Firmware) (p : List UInt8) :
    handlerReadSinglePortDecimal r fw p =
      execOpt r fw (HandlerFn.readSinglePortDecimal.decode (cstr p)) := by
  unfold handlerReadSinglePortDecimal
  simp only [strlen, HandlerFn.decode, ← deref_cstr p]
  rcases cstr p with _ | ⟨y, _ | ⟨n, t⟩⟩
  · rfl
  · simp only [deref_cons, getInputPortValue_eq]
    cases hy : portArg y with
    | none => rfl
    | some port => simp [port.value_ne r, execOpt, exec, DEC_DIGITS_4_BIT]
  · simp [execOpt]

theorem handlerWriteRelayPort_eq (r : Readings) (fw : Firmware) (p : List UInt8) :
    handlerWriteRelayPort fw p = execOpt r fw (HandlerFn.writeRelayPort.decode (cstr p)) := by
  unfold handlerWriteRelayPort
  simp only [HandlerFn.decode, byteArg, strtoul_cstr p, deref_eq_zero_iff]
  by_cases hlen : strlen p ≤ 3
  · have hlen' : (cstr p).length ≤ 3 := hlen
    by_cases hend : cstr (strtoul p).2 = [] ∧ (strtoul p).1 ≤ 255 <;>
      simp [hlen, hlen', hend, execOpt, exec]
  · have hlen' : ¬ (cstr p).length ≤ 3 := hlen
    simp [hlen, hlen', execOpt]

theorem strlen_eq_zero_iff (p : List UInt8) : strlen p = 0 ↔ cstr p = [] := List.length_eq_zero_iff

/-- The setter half of the settings handlers, on one argument character. -/
theorem settingArg_ne {n : Nat} {a : List UInt8} (h : a.length ≠ 1) : settingArg n a = none := by
  unfold settingArg
  split
  · exact absurd rfl h
  · rfl

theorem handlerDebounceSetting_eq (r : Readings) (fw : Firmware) (p : List UInt8) :
    handlerDebounceSetting fw p = execOpt r fw (HandlerFn.debounceSetting.decode (cstr p)) := by
  unfold handlerDebounceSetting
  simp only [HandlerFn.decode, strlen_eq_zero_iff]
  by_cases h0 : cstr p = []
  · rw [if_pos h0, if_pos h0]; rfl
  · rw [if_neg h0, if_neg h0]
    by_cases h1 : strlen p = 1
    · obtain ⟨c, hc⟩ := (strlen_eq_one_iff p).mp h1
      have hset := setter_eq (n := 3) hc (fun v hv => (true, { fw with
        events := eventCounterDebounceTimeSet DEBOUNCE_TIMES_US[v] fw.events })) (false, fw)
      rw [if_pos h1]
      refine hset.trans ?_
      cases settingArg 3 (cstr p) <;> rfl
    · rw [if_neg h1, settingArg_ne h1]; rfl

theorem handlerWatchdogSetting_eq (r : Readings) (fw : Firmware) (p : List UInt8) :
    handlerWatchdogSetting fw p = execOpt r fw (HandlerFn.watchdogSetting.decode (cstr p)) := by
  unfold handlerWatchdogSetting
  simp only [HandlerFn.decode, strlen_eq_zero_iff]
  by_cases h0 : cstr p = []
  · rw [if_pos h0, if_pos h0]; rfl
  · rw [if_neg h0, if_neg h0]
    by_cases h1 : strlen p = 1
    · obtain ⟨c, hc⟩ := (strlen_eq_one_iff p).mp h1
      have hset := setter_eq (n := 4) hc (fun v hv => (false, { fw with
        watchdog := watchdogTimeoutSet WATCHDOG_TIMES_US[v] fw.watchdog })) (false, fw)
      rw [if_pos h1]
      refine hset.trans ?_
      cases settingArg 4 (cstr p) <;> rfl
    · rw [if_neg h1, settingArg_ne h1]; rfl

theorem ofNat_toNat_lt {v : Nat} (h : v < 2 ^ 32) : (UInt32.ofNat v).toNat = v := by
  rw [UInt32.toNat_ofNat', Nat.mod_eq_of_lt h]

/-- Every handler executes the command it decodes from its argument string. -/
theorem call_eq (r : Readings) (fw : Firmware) (p : List UInt8) (h : HandlerFn) :
    h.call r fw p = execOpt r fw (h.decode (cstr p)) := by
  cases h with
  | setRelay =>
    rw [HandlerFn.call, handlerSetRelay, show NUM_RELAYS = UInt32.ofNat 8 from rfl,
      handlerIndexed_eq (by decide), HandlerFn.decode]
    cases indexArg 8 (cstr p) with
    | none => rfl
    | some n => simp [execOpt, exec, ofNat_toNat_lt (show n.val < 2 ^ 32 by omega)]
  | clearRelay =>
    rw [HandlerFn.call, handlerClearRelay, show NUM_RELAYS = UInt32.ofNat 8 from rfl,
      handlerIndexed_eq (by decide), HandlerFn.decode]
    cases indexArg 8 (cstr p) with
    | none => rfl
    | some n => simp [execOpt, exec, ofNat_toNat_lt (show n.val < 2 ^ 32 by omega)]
  | writeRelayPort => exact handlerWriteRelayPort_eq r fw p
  | readSingleRelay =>
    rw [HandlerFn.call, handlerReadSingleRelay, show NUM_RELAYS = UInt32.ofNat 8 from rfl,
      handlerIndexed_eq (by decide), HandlerFn.decode]
    cases indexArg 8 (cstr p) with
    | none => rfl
    | some n => simp [execOpt, exec, bitByte, ofNat_toNat_lt (show n.val < 2 ^ 32 by omega)]
  | readRelayPortDecimal =>
    simp only [HandlerFn.call, handlerReadRelayPortDecimal, strlen_eq_zero_iff, HandlerFn.decode]
    split <;> rfl
  | readSinglePort => exact handlerReadSinglePort_eq r fw p
  | readSinglePortDecimal => exact handlerReadSinglePortDecimal_eq r fw p
  | readCombinedPortsDecimal =>
    simp only [HandlerFn.call, handlerReadCombinedPortsDecimal, strlen_eq_zero_iff, HandlerFn.decode]
    split <;> rfl
  | readEventCounter =>
    rw [HandlerFn.call, handlerReadEventCounter, handlerIndexed_eq (by decide), HandlerFn.decode]
    cases indexArg 8 (cstr p) <;> rfl
  | readAndResetEventCounter =>
    rw [HandlerFn.call, handlerReadAndResetEventCounter, handlerIndexed_eq (by decide),
      HandlerFn.decode]
    cases indexArg 8 (cstr p) <;> rfl
  | debounceSetting => exact handlerDebounceSetting_eq r fw p
  | watchdogSetting => exact handlerWatchdogSetting_eq r fw p

/-! ## The search loop finds the first matching entry -/

theorem entry_no_nul {e : CommandProcessorEntry} (he : e ∈ ENTRIES) : ∀ c ∈ e.commandPrefix, c ≠ 0 := by
  have key : ENTRIES.all (fun e => e.commandPrefix.all (· != 0)) = true := by decide
  intro c hc
  simpa using List.all_eq_true.mp (List.all_eq_true.mp key e he) c hc

theorem strncasecmp_entry {e : CommandProcessorEntry} (he : e ∈ ENTRIES) (p : List UInt8) :
    strncasecmp p e.commandPrefix e.commandPrefixLen = 0 ↔ e.matches p = true := by
  rw [CommandProcessorEntry.commandPrefixLen, strncasecmp_eq_zero_iff p (entry_no_nul he)]
  simp [CommandProcessorEntry.matches, CommandProcessorEntry.commandPrefixLen]

/-- Once a handler was called, the remaining iterations do nothing. -/
theorem foldl_found (r : Readings) (es : List CommandProcessorEntry) (s : Search)
    (h : s.handlerFound = true) : es.foldl (searchStep r) s = s := by
  induction es with
  | nil => rfl
  | cons e es ih => rw [List.foldl_cons, searchStep, if_pos h, ih]

/-- What the loop leaves when it starts with no handler found. -/
def searchResult (r : Readings) (s : Search) (es : List CommandProcessorEntry) : Search :=
  match es.find? (·.matches s.args) with
  | none => s
  | some e =>
    let args := s.args.drop e.commandPrefixLen
    let res := e.handler.call r s.fw args
    { fw := res.2, args := args, success := res.1, handlerFound := true,
      calls := s.calls ++ [(e.handler, args)] }

theorem foldl_search (r : Readings) (es : List CommandProcessorEntry) (hes : ∀ e ∈ es, e ∈ ENTRIES)
    (s : Search) (h : s.handlerFound = false) :
    es.foldl (searchStep r) s = searchResult r s es := by
  induction es with
  | nil => rfl
  | cons e es ih =>
    have hmatch := strncasecmp_entry (hes e (by simp)) s.args
    rw [List.foldl_cons, searchResult, List.find?_cons]
    by_cases hm : e.matches s.args = true
    · have hstep : searchStep r s e = searchResult r s [e] := by
        simp [searchStep, searchResult, h, hmatch.mpr hm, hm]
      rw [hstep, foldl_found]
      · simp [searchResult, hm]
      · simp [searchResult, hm]
    · have hstep : searchStep r s e = s := by
        simp only [searchStep, h, Bool.false_eq_true, if_false]
        rw [if_neg fun h0 => hm (hmatch.mp h0)]
      rw [hstep, ih fun e' he' => hes e' (by simp [he'])]
      simp [searchResult, hm]

theorem search_eq (r : Readings) (fw : Firmware) (p : List UInt8) :
    search r fw p = searchResult r
      { fw := fw, args := p, success := false, handlerFound := false, calls := [] } ENTRIES :=
  foldl_search r ENTRIES (fun _ h => h) _ rfl

/-! ## The command processor -/

/-- A matching prefix lies inside the string, in front of its terminator. -/
theorem matches_length {e : CommandProcessorEntry} (he : e ∈ ENTRIES) {p : List UInt8}
    (h : e.matches p = true) : e.commandPrefixLen ≤ (cstr p).length := by
  have heq : (p.take e.commandPrefixLen).map toupper = e.commandPrefix.map toupper := by
    simpa [CommandProcessorEntry.matches] using h
  have hlen : (p.take e.commandPrefixLen).length = e.commandPrefixLen := by
    simpa [CommandProcessorEntry.commandPrefixLen] using congrArg List.length heq
  have hne : ∀ c ∈ p.take e.commandPrefixLen, c ≠ 0 := by
    intro c hc h0
    have hmem : toupper c ∈ e.commandPrefix.map toupper := heq ▸ List.mem_map_of_mem hc
    obtain ⟨x, hx, hxc⟩ := List.mem_map.mp hmem
    exact entry_no_nul he x hx ((toupper_eq_zero_iff x).mp (by rw [hxc, (toupper_eq_zero_iff c).mpr h0]))
  have happ := cstr_append hne (p.drop e.commandPrefixLen)
  rw [List.take_append_drop] at happ
  rw [happ, List.length_append]
  omega

theorem matches_cstr {e : CommandProcessorEntry} (he : e ∈ ENTRIES) (p : List UInt8) :
    e.matches (cstr p) = e.matches p := by
  have key : e.commandPrefixLen ≤ (cstr p).length → e.matches (cstr p) = e.matches p := by
    intro h
    rw [CommandProcessorEntry.matches, CommandProcessorEntry.matches, take_cstr h]
  cases h : e.matches p with
  | true => rw [key (matches_length he h), h]
  | false =>
    cases h' : e.matches (cstr p) with
    | false => rfl
    | true =>
      have := matches_length he h'
      rw [cstr_cstr] at this
      rw [← h', key this, h]

theorem find_cstr (p : List UInt8) :
    ENTRIES.find? (·.matches (cstr p)) = ENTRIES.find? (·.matches p) := by
  exact List.find?_congr fun e he => matches_cstr he p

/-- The search loop decodes the string at `p` and executes the command. -/
theorem search_exec (r : Readings) (fw : Firmware) (p : List UInt8) :
    ((search r fw p).success, (search r fw p).fw) = execOpt r fw (decode (cstr p)) := by
  rw [search_eq, searchResult, decode, find_cstr]
  cases h : ENTRIES.find? (·.matches p) with
  | none => rfl
  | some e =>
    have hlen := matches_length (List.mem_of_find?_eq_some h) (by simpa using List.find?_some h)
    simp only [Option.bind_some]
    rw [call_eq, cstr_drop hlen]

/-- **Refinement.** `AduProtocolProcessCommand` decodes and executes the command,
unless it is over-long, and kicks the watchdog in every case. -/
theorem processCommand_eq (r : Readings) (buf : List UInt8) (len : Nat) (fw : Firmware) :
    aduProtocolProcessCommand r buf len fw =
      let res :=
        if strnlen buf len > MAX_CMD_STR_SIZE then (false, fw)
        else execOpt r { fw with response := fw.response.clear } (decode (cstr buf))
      (res.1, { res.2 with watchdog := watchdogKick r res.2.watchdog }) := by
  unfold aduProtocolProcessCommand
  by_cases hlen : strnlen buf len > MAX_CMD_STR_SIZE
  · simp only [hlen, if_true]
  · simp only [hlen, if_false, ← search_exec]

end Relacon.L3
