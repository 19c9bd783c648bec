import Relacon.L3Protocol.Dispatch

/-!
# Command strings

`argsOf p s` is what follows the prefix `p` in the command string `s`, letters
compared case-insensitively. `decode_iff` says which strings decode to a command:
those with the prefix of its handler and an argument string that the handler
decodes to it. The table is searched in order and `RP` is a prefix of `RPK`, but
no argument of `RP` starts with a `K`, so the order never changes the meaning.
-/
namespace Relacon.L3
open Relacon.Core

def argsOf (p s : List UInt8) : Option (List UInt8) :=
  if p <+: s.map toupper then some (s.drop p.length) else none

def SK : List UInt8 := ascii ['S', 'K']
def RK : List UInt8 := ascii ['R', 'K']
def MK : List UInt8 := ascii ['M', 'K']
def RPK : List UInt8 := ascii ['R', 'P', 'K']
def PK : List UInt8 := ascii ['P', 'K']
def RP : List UInt8 := ascii ['R', 'P']
def PA : List UInt8 := ascii ['P', 'A']
def PI : List UInt8 := ascii ['P', 'I']
def RE : List UInt8 := ascii ['R', 'E']
def RC : List UInt8 := ascii ['R', 'C']
def DB : List UInt8 := ascii ['D', 'B']
def WD : List UInt8 := ascii ['W', 'D']

/-- The prefix under which a handler is registered. -/
def HandlerFn.commandPrefix : HandlerFn → List UInt8
  | .setRelay => SK
  | .clearRelay => RK
  | .writeRelayPort => MK
  | .readSingleRelay => RPK
  | .readRelayPortDecimal => PK
  | .readSinglePort => RP
  | .readSinglePortDecimal => PA
  | .readCombinedPortsDecimal => PI
  | .readEventCounter => RE
  | .readAndResetEventCounter => RC
  | .debounceSetting => DB
  | .watchdogSetting => WD

/-- The handler that recognises a command. -/
def Command.handler : Command → HandlerFn
  | .setRelay _ => .setRelay
  | .clearRelay _ => .clearRelay
  | .writeRelayPort _ => .writeRelayPort
  | .readSingleRelay _ => .readSingleRelay
  | .readRelayPort => .readRelayPortDecimal
  | .readInputLine _ _ => .readSinglePort
  | .readInputPort _ => .readSinglePort
  | .readInputPortDecimal _ => .readSinglePortDecimal
  | .readInputs => .readCombinedPortsDecimal
  | .readEventCounter _ => .readEventCounter
  | .readAndResetEventCounter _ => .readAndResetEventCounter
  | .getDebounce => .debounceSetting
  | .setDebounce _ => .debounceSetting
  | .getWatchdog => .watchdogSetting
  | .setWatchdog _ => .watchdogSetting

theorem argsOf_eq_some_iff {p s a : List UInt8} :
    argsOf p s = some a ↔ p <+: s.map toupper ∧ s.drop p.length = a := by
  unfold argsOf
  split
  · rename_i h; simp [h]
  · rename_i h; simp [h]

theorem argsOf_eq_none_iff {p s : List UInt8} : argsOf p s = none ↔ ¬ p <+: s.map toupper := by
  unfold argsOf
  split
  · rename_i h; simp [h]
  · rename_i h; simp [h]

theorem handler_of_decode {a : List UInt8} {h : HandlerFn} {c : Command} (hc : h.decode a = some c) :
    c.handler = h := by
  cases h with
  | setRelay | clearRelay | writeRelayPort | readSingleRelay | readEventCounter
  | readAndResetEventCounter =>
    simp only [HandlerFn.decode, Option.map_eq_some_iff] at hc
    obtain ⟨i, -, rfl⟩ := hc
    rfl
  | readRelayPortDecimal | readCombinedPortsDecimal =>
    simp only [HandlerFn.decode] at hc
    split at hc <;> cases hc
    rfl
  | readSinglePort =>
    simp only [HandlerFn.decode] at hc
    split at hc
    · simp only [Option.map_eq_some_iff] at hc
      obtain ⟨y, -, rfl⟩ := hc
      rfl
    · simp only [Option.bind_eq_some_iff, Option.map_eq_some_iff] at hc
      obtain ⟨y, -, n, -, rfl⟩ := hc
      rfl
    · cases hc
  | readSinglePortDecimal =>
    simp only [HandlerFn.decode] at hc
    split at hc
    · simp only [Option.map_eq_some_iff] at hc
      obtain ⟨y, -, rfl⟩ := hc
      rfl
    · cases hc
  | debounceSetting | watchdogSetting =>
    simp only [HandlerFn.decode] at hc
    split at hc
    · cases hc; rfl
    · simp only [Option.map_eq_some_iff] at hc
      obtain ⟨i, -, rfl⟩ := hc
      rfl

/-! ## The table -/

theorem entry_prefix : ∀ e ∈ ENTRIES, e.commandPrefix = e.handler.commandPrefix := by decide

theorem prefix_upper (h : HandlerFn) : h.commandPrefix.map toupper = h.commandPrefix := by
  cases h <;> decide

theorem matches_iff {e : CommandProcessorEntry} (he : e ∈ ENTRIES) (s : List UInt8) :
    e.matches s = decide (e.handler.commandPrefix <+: s.map toupper) := by
  rw [matches_key, CommandProcessorEntry.key, entry_prefix e he, prefix_upper]

/-- The first matching entry is the one of the handler with the given prefix,
unless `RPK` takes precedence over `RP`. -/
theorem find_of_argsOf {h : HandlerFn} {s a : List UInt8} (ha : argsOf h.commandPrefix s = some a)
    (hrp : h = .readSinglePort → argsOf RPK s = none) :
    ENTRIES.find? (·.matches s) = some ⟨h.commandPrefix, h⟩ := by
  obtain ⟨t, ht⟩ := (argsOf_eq_some_iff.mp ha).1
  rw [List.find?_congr fun e he => matches_iff he s, ← ht]
  cases h with
  | readSinglePort =>
    have hk := argsOf_eq_none_iff.mp (hrp rfl)
    rw [← ht] at hk
    simp only [HandlerFn.commandPrefix] at hk ⊢
    simp only [ENTRIES, List.find?_cons, hk, decide_false]
    rfl
  | _ => rfl

theorem portArg_upper {c : UInt8} {y : Port} (h : portArg c = some y) :
    toupper c = 'A'.toUInt8 ∨ toupper c = 'B'.toUInt8 := by
  unfold portArg at h
  split at h
  · exact .inl ‹_›
  · split at h
    · exact .inr ‹_›
    · cases h

/-- An argument that `RP` accepts does not start with a `K`. -/
theorem readSinglePort_head {a : List UInt8} {c : Command}
    (h : HandlerFn.readSinglePort.decode a = some c) : ¬ ['K'.toUInt8] <+: a.map toupper := by
  have hport : ∃ y t port, a = y :: t ∧ portArg y = some port := by
    simp only [HandlerFn.decode] at h
    split at h
    · rename_i y
      obtain ⟨port, hp, -⟩ := Option.map_eq_some_iff.mp h
      exact ⟨y, [], port, rfl, hp⟩
    · rename_i y n
      obtain ⟨port, hp, -⟩ := Option.bind_eq_some_iff.mp h
      exact ⟨y, [n], port, rfl, hp⟩
    · cases h
  obtain ⟨y, t, port, rfl, hp⟩ := hport
  rw [List.map_cons, List.cons_prefix_cons]
  rintro ⟨hk, -⟩
  rcases portArg_upper hp with hu | hu <;> rw [hu] at hk <;> exact absurd hk (by decide)

/-- **Which strings decode to a command.** -/
theorem decode_iff (s : List UInt8) (c : Command) :
    decode s = some c ↔
      ∃ a, argsOf c.handler.commandPrefix s = some a ∧ c.handler.decode a = some c := by
  refine ⟨fun h => ?_, fun h => ?_⟩
  · simp only [decode, Option.bind_eq_some_iff] at h
    obtain ⟨e, he, hc⟩ := h
    have hmem := List.mem_of_find?_eq_some he
    have hm := List.find?_some he
    rw [matches_iff hmem, decide_eq_true_iff] at hm
    refine ⟨s.drop e.commandPrefixLen, ?_, ?_⟩
    · rw [handler_of_decode hc, argsOf_eq_some_iff]
      rw [CommandProcessorEntry.commandPrefixLen, entry_prefix e hmem]
      exact ⟨hm, rfl⟩
    · rw [handler_of_decode hc, hc]
  · obtain ⟨a, ha, hc⟩ := h
    have hdrop := (argsOf_eq_some_iff.mp ha).2
    have hrp : c.handler = .readSinglePort → argsOf RPK s = none := by
      intro hh
      rw [hh] at hc hdrop
      rw [argsOf_eq_none_iff]
      rintro ⟨t, ht⟩
      apply readSinglePort_head hc
      rw [← hdrop, List.map_drop, ← ht]
      exact ⟨t, rfl⟩
    rw [decode, find_of_argsOf ha hrp, Option.bind_some, CommandProcessorEntry.commandPrefixLen,
      hdrop, hc]

theorem decode_of_args {h : HandlerFn} {s a : List UInt8} {c : Command}
    (ha : argsOf h.commandPrefix s = some a) (hc : h.decode a = some c) : decode s = some c := by
  rw [decode_iff, handler_of_decode hc]
  exact ⟨a, ha, hc⟩

/-- A string matches one prefix of two letters only. -/
theorem argsOf_eq_none {p q s a : List UInt8} (ha : argsOf q s = some a) (hlen : p.length ≤ q.length)
    (hne : ¬ p <+: q) : argsOf p s = none := by
  rw [argsOf_eq_none_iff]
  intro hp
  exact hne (List.prefix_of_prefix_length_le hp (argsOf_eq_some_iff.mp ha).1 hlen)

theorem two_le_prefix (h : HandlerFn) : 2 ≤ h.commandPrefix.length := by
  cases h <;> decide

/-- `RP` is the only prefix that is one of another prefix. -/
theorem prefix_unique {h k : HandlerFn} (hrp : h ≠ .readSinglePort)
    (hpre : h.commandPrefix <+: k.commandPrefix) : h = k := by
  cases h <;> cases k <;> first | rfl | exact absurd rfl hrp | exact absurd hpre (by decide)

/-- A string that one handler reads does not have another prefix of two letters. -/
theorem argsOf_other {h k : HandlerFn} (hlen : h.commandPrefix.length = 2)
    (hrp : h ≠ .readSinglePort) (hne : h ≠ k) {s a : List UInt8}
    (ha : argsOf k.commandPrefix s = some a) : argsOf h.commandPrefix s = none :=
  argsOf_eq_none ha (hlen ▸ two_le_prefix k) fun hpre => hne (prefix_unique hrp hpre)

/-- Behind another prefix of two letters only its handler decodes the string. -/
theorem decode_of_prefix {h : HandlerFn} (hlen : h.commandPrefix.length = 2)
    (hrp : h ≠ .readSinglePort) {s a : List UInt8} {c : Command}
    (ha : argsOf h.commandPrefix s = some a) (hd : decode s = some c) : h.decode a = some c := by
  obtain ⟨b, hb, hc⟩ := (decode_iff s c).mp hd
  have hk : h = c.handler := by
    by_contra hne
    rw [argsOf_other hlen hrp hne hb] at ha
    cases ha
  rw [← hk, ha, Option.some.injEq] at hb
  rw [hk, hb, hc]

/-! ## Argument strings -/

theorem indexArg_iff {n : Nat} (hn : n ≤ 10) {a : List UInt8} {i : Fin n} :
    indexArg n a = some i ↔ a = [asciiDigit i] := by
  have hi : i.val < 10 := by omega
  refine ⟨fun h => ?_, fun h => ?_⟩
  · unfold indexArg at h
    split at h
    · rename_i c
      split at h
      · rename_i hc
        cases h
        rw [asciiDigit_digitVal hc.1]
      · cases h
    · cases h
  · subst h
    have hd := isdigit_asciiDigit hi
    have hv := digitVal_asciiDigit hi
    simp only [indexArg]
    rw [dif_pos ⟨hd, hv.symm ▸ i.isLt⟩]
    congr 1
    exact Fin.ext hv

theorem settingArg_iff {n : Nat} (hn : n ≤ 10) {a : List UInt8} {i : Fin n} :
    settingArg n a = some i ↔
      a = [asciiDigit i] ∨ (i.val = 0 ∧ ∃ c, isdigit c = false ∧ a = [c]) := by
  have hi : i.val < 10 := by omega
  constructor
  · intro h
    unfold settingArg at h
    split at h
    · rename_i c
      by_cases hd : isdigit c = true
      · left
        simp only [hd, if_true] at h
        split at h
        · cases h
          rw [asciiDigit_digitVal hd]
        · cases h
      · right
        simp only [hd, Bool.false_eq_true, if_false] at h
        split at h
        · cases h
          exact ⟨rfl, c, by simpa using hd, rfl⟩
        · cases h
    · cases h
  · have key : ∀ {c : UInt8} {v : Nat}, (if isdigit c then digitVal c else 0) = v → v = i.val →
        settingArg n [c] = some i := by
      intro c v hc hv
      have hlt : (if isdigit c = true then digitVal c else 0) < n := by
        rw [hc, hv]; exact i.isLt
      simp only [settingArg]
      rw [dif_pos hlt]
      congr 1
      exact Fin.ext (hc.trans hv)
    rintro (rfl | ⟨h0, c, hc, rfl⟩)
    · exact key (if_pos (isdigit_asciiDigit hi)) (digitVal_asciiDigit hi)
    · exact key (if_neg (by simp [hc])) h0.symm

/-- The commands that take one decimal index. -/
theorem decode_indexed {h : HandlerFn} {con : Fin 8 → Command} (hcon : Function.Injective con)
    (hdec : ∀ a, h.decode a = (indexArg 8 a).map con) {s : List UInt8} {n : Fin 8} :
    decode s = some (con n) ↔ argsOf h.commandPrefix s = some [asciiDigit n] := by
  have hn : h.decode [asciiDigit n] = some (con n) := by
    rw [hdec, (indexArg_iff (by decide)).mpr rfl]
    rfl
  rw [decode_iff, handler_of_decode hn]
  refine ⟨fun h => ?_, fun ha => ?_⟩
  · obtain ⟨a, ha, hc⟩ := h
    rw [hdec, Option.map_eq_some_iff] at hc
    obtain ⟨j, hj, hjn⟩ := hc
    rw [ha, (indexArg_iff (by decide)).mp hj, hcon hjn]
  · exact ⟨_, ha, hn⟩

theorem decode_setRelay_iff {s : List UInt8} {n : Fin 8} :
    decode s = some (.setRelay n) ↔ argsOf SK s = some [asciiDigit n] :=
  decode_indexed (h := .setRelay) (fun _ _ h => by cases h; rfl) fun _ => rfl

theorem decode_clearRelay_iff {s : List UInt8} {n : Fin 8} :
    decode s = some (.clearRelay n) ↔ argsOf RK s = some [asciiDigit n] :=
  decode_indexed (h := .clearRelay) (fun _ _ h => by cases h; rfl) fun _ => rfl

theorem decode_readSingleRelay_iff {s : List UInt8} {n : Fin 8} :
    decode s = some (.readSingleRelay n) ↔ argsOf RPK s = some [asciiDigit n] :=
  decode_indexed (h := .readSingleRelay) (fun _ _ h => by cases h; rfl) fun _ => rfl

theorem decode_readEventCounter_iff {s : List UInt8} {n : Fin 8} :
    decode s = some (.readEventCounter n) ↔ argsOf RE s = some [asciiDigit n] :=
  decode_indexed (h := .readEventCounter) (fun _ _ h => by cases h; rfl) fun _ => rfl

theorem decode_readAndResetEventCounter_iff {s : List UInt8} {n : Fin 8} :
    decode s = some (.readAndResetEventCounter n) ↔ argsOf RC s = some [asciiDigit n] :=
  decode_indexed (h := .readAndResetEventCounter) (fun _ _ h => by cases h; rfl) fun _ => rfl

/-- The two settings: one argument character sets, none queries. -/
theorem decode_setter {n : Nat} (hn : n ≤ 10) {h : HandlerFn} {con : Fin n → Command} {q : Command}
    (hcon : Function.Injective con) (hquery : ∀ i, q ≠ con i)
    (hdec : ∀ a, h.decode a = if a = [] then some q else (settingArg n a).map con)
    {s : List UInt8} {i : Fin n} :
    decode s = some (con i) ↔ (argsOf h.commandPrefix s).bind (settingArg n) = some i := by
  have hset : ∀ {a}, h.decode a = some (con i) ↔ settingArg n a = some i := by
    intro a
    rw [hdec]
    by_cases ha : a = []
    · subst ha
      simpa [settingArg] using hquery i
    · simp [ha, hcon.eq_iff]
  rw [Option.bind_eq_some_iff]
  refine ⟨fun hd => ?_, fun hx => ?_⟩
  · obtain ⟨a, ha, hc⟩ := (decode_iff s _).mp hd
    rw [handler_of_decode (hset.mpr ((settingArg_iff hn).mpr (.inl rfl)))] at ha hc
    exact ⟨a, ha, hset.mp hc⟩
  · obtain ⟨a, ha, hi⟩ := hx
    exact decode_of_args ha (hset.mpr hi)

theorem decode_setDebounce_iff {s : List UInt8} {i : Fin 3} :
    decode s = some (.setDebounce i) ↔ (argsOf DB s).bind (settingArg 3) = some i :=
  decode_setter (by decide) (h := .debounceSetting) (q := .getDebounce)
    (fun _ _ h => by cases h; rfl) (fun _ h => by cases h) fun _ => rfl

theorem decode_setWatchdog_bind {s : List UInt8} {i : Fin 4} :
    decode s = some (.setWatchdog i) ↔ (argsOf WD s).bind (settingArg 4) = some i :=
  decode_setter (by decide) (h := .watchdogSetting) (q := .getWatchdog)
    (fun _ _ h => by cases h; rfl) (fun _ h => by cases h) fun _ => rfl

theorem decode_setWatchdog_iff {s : List UInt8} {i : Fin 4} :
    decode s = some (.setWatchdog i) ↔ ∃ c, argsOf WD s = some [c] ∧ settingArg 4 [c] = some i := by
  rw [decode_setWatchdog_bind, Option.bind_eq_some_iff]
  refine ⟨fun hx => ?_, fun hx => ?_⟩
  · obtain ⟨a, ha, hi⟩ := hx
    obtain ⟨c, rfl⟩ := List.length_eq_one_iff.mp (settingArg_length hi)
    exact ⟨c, ha, hi⟩
  · obtain ⟨c, ha, hi⟩ := hx
    exact ⟨[c], ha, hi⟩

end Relacon.L3
