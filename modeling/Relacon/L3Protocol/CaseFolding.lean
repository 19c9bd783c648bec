import Relacon.L3Protocol.Effects

/-!
# Commands are case-insensitive

Case is handled in three places: the prefix match folds it, `toupper` is applied
to a port letter, and every other argument is read by `strtoul`, which takes no
letter. Each argument parser is shown to give the same for the string in upper
case (`indexArg_upper`, `byteArg_upper`, ...); so does every handler, and so does
`decode`. `processCommand_case`: strings that differ in case only have the same
result and the same effect, in any memory.
-/
namespace Relacon.L3
open Relacon.Core Relacon.L1 Relacon.L2

/-- Of the same length, and equal up to the case of ASCII letters. -/
def SameUpToCase (s s' : List UInt8) : Prop := s.map toupper = s'.map toupper

instance (s s' : List UInt8) : Decidable (SameUpToCase s s') := inferInstanceAs (Decidable (_ = _))

/-! ## Arguments -/

/-- A digit is no letter, so a character and its upper case have the same value as a digit. -/
theorem digitVal_upper {c : UInt8} (h : isdigit c = true) : digitVal (toupper c) = digitVal c := by
  rw [toupper_of_isdigit h]

theorem indexArg_upper (n : Nat) (a : List UInt8) : indexArg n (a.map toupper) = indexArg n a := by
  rcases a with _ | ⟨c, _ | ⟨d, a⟩⟩
  · rfl
  · simp only [List.map_cons, List.map_nil, indexArg, isdigit_toupper]
    by_cases hd : isdigit c = true
    · simp only [hd, digitVal_upper hd]
    · simp [hd]
  · rfl

theorem settingArg_upper (n : Nat) (a : List UInt8) :
    settingArg n (a.map toupper) = settingArg n a := by
  rcases a with _ | ⟨c, _ | ⟨d, a⟩⟩
  · rfl
  · simp only [List.map_cons, List.map_nil, settingArg, isdigit_toupper]
    by_cases hd : isdigit c = true
    · simp only [hd, digitVal_upper hd]
    · simp [hd]
  · rfl

theorem byteArg_upper (a : List UInt8) : byteArg (a.map toupper) = byteArg a := by
  simp only [byteArg, strtoul_upper, List.length_map, List.map_eq_nil_iff]

theorem portArg_upper_eq (c : UInt8) : portArg (toupper c) = portArg c := by
  rw [portArg, toupper_toupper, portArg]

theorem handler_decode_upper (h : HandlerFn) (a : List UInt8) :
    h.decode (a.map toupper) = h.decode a := by
  cases h with
  | setRelay | clearRelay | readSingleRelay | readEventCounter | readAndResetEventCounter =>
    simp only [HandlerFn.decode, indexArg_upper]
  | writeRelayPort => simp only [HandlerFn.decode, byteArg_upper]
  | readRelayPortDecimal | readCombinedPortsDecimal =>
    simp only [HandlerFn.decode, List.map_eq_nil_iff]
  | readSinglePort =>
    rcases a with _ | ⟨y, _ | ⟨n, _ | ⟨x, a⟩⟩⟩
    · rfl
    · simp only [List.map_cons, List.map_nil, HandlerFn.decode, portArg_upper_eq]
    · have hn := indexArg_upper 4 [n]
      simp only [List.map_cons, List.map_nil] at hn
      simp only [List.map_cons, List.map_nil, HandlerFn.decode, portArg_upper_eq, hn]
    · rfl
  | readSinglePortDecimal =>
    rcases a with _ | ⟨y, _ | ⟨n, a⟩⟩
    · rfl
    · simp only [List.map_cons, List.map_nil, HandlerFn.decode, portArg_upper_eq]
    · rfl
  | debounceSetting | watchdogSetting =>
    simp only [HandlerFn.decode, List.map_eq_nil_iff, settingArg_upper]

/-! ## Command strings -/

theorem matches_upper (e : CommandProcessorEntry) (s : List UInt8) :
    e.matches (s.map toupper) = e.matches s := by
  have hfold : ∀ l : List UInt8, (l.map toupper).map toupper = l.map toupper := by
    intro l
    simp
  rw [CommandProcessorEntry.matches, ← List.map_take, hfold, CommandProcessorEntry.matches]

theorem decode_upper (s : List UInt8) : decode (s.map toupper) = decode s := by
  have hfind : ENTRIES.find? (·.matches (s.map toupper)) = ENTRIES.find? (·.matches s) :=
    List.find?_congr fun e _ => matches_upper e s
  rw [decode, hfind, decode]
  simp only [← List.map_drop, handler_decode_upper]

theorem decode_case {s s' : List UInt8} (h : SameUpToCase s s') : decode s = decode s' := by
  rw [← decode_upper s, h, decode_upper s']

theorem SameUpToCase.length {s s' : List UInt8} (h : SameUpToCase s s') : s.length = s'.length := by
  simpa using congrArg List.length h

theorem SameUpToCase.no_nul {s s' : List UInt8} (h : SameUpToCase s s') (hs : ∀ c ∈ s, c ≠ 0) :
    ∀ c ∈ s', c ≠ 0 := by
  rintro c hc rfl
  have hmem : toupper 0 ∈ s.map toupper := h ▸ List.mem_map_of_mem hc
  obtain ⟨d, hd, hd0⟩ := List.mem_map.mp hmem
  exact hs d hd ((toupper_eq_zero_iff d).mp hd0)

/-- **Commands are case-insensitive**, in their result and in all their effects. -/
theorem processCommand_case (r : Readings) (fw : Firmware) (len : Nat) {s s' : List UInt8}
    (hs : ∀ c ∈ s, c ≠ 0) (hcase : SameUpToCase s s') (rest rest' : List UInt8) :
    aduProtocolProcessCommand r (s ++ 0 :: rest) len fw =
      aduProtocolProcessCommand r (s' ++ 0 :: rest') len fw := by
  have hs' := hcase.no_nul hs
  have hlen : strnlen (s ++ 0 :: rest) len = strnlen (s' ++ 0 :: rest') len := by
    rw [strnlen_eq_min, strnlen_eq_min, strlen, strlen, cstr_append_nul hs, cstr_append_nul hs',
      hcase.length]
  rw [processCommand_eq, processCommand_eq, hlen, cstr_append_nul hs, cstr_append_nul hs',
    decode_case hcase]

/-- `rpa0` is `RPA0`, with different bytes behind the terminator. -/
theorem processCommand_case_line :
    let fw : Firmware := ⟨0, EventCounters.zero, ⟨0, 0⟩, ⟨Vector.replicate _ 0, 0⟩⟩
    aduProtocolProcessCommand ⟨0, 0, 2⟩ (ascii ['r', 'p', 'a', '0'] ++ 0 :: [1, 2]) 7 fw =
      aduProtocolProcessCommand ⟨0, 0, 2⟩ (ascii ['R', 'P', 'A', '0'] ++ 0 :: []) 7 fw := by
  intro fw
  have hcase : SameUpToCase (ascii ['r', 'p', 'a', '0']) (ascii ['R', 'P', 'A', '0']) := by decide
  exact processCommand_case ⟨0, 0, 2⟩ fw 7 (ascii_no_nul (by decide)) hcase [1, 2] []

end Relacon.L3
