import Relacon.L3Protocol.Syntax

/-!
# The documented grammar against the accepted one

`grammar` is the documented command list, `inGrammar` membership of a whole
string. The processor accepts every string of the grammar, and beyond it exactly
the three kinds of `Stray` (`decode_isSome_iff`, `decode_outside`):

* `MK` with an empty argument, or with blanks or a sign in front of the digits
  (`LooseByte`): `HandlerWriteRelayPort` only tests that `strtoul` stopped at the
  end of the string;
* `DB` and `WD` with one character that is no digit: the setters do not test
  `endptr` at all, so the character reads as setting 0.
-/
namespace Relacon.L3
open Relacon.Core

/-! ## The documented commands -/

/-- One character in `'0'..'0'+n-1`. -/
def isIndex (n : Nat) : List UInt8 → Bool
  | [c] => 48 ≤ c.toNat && c.toNat < 48 + n
  | _ => false

/-- One to three digits of value at most 255. -/
def isByte (a : List UInt8) : Bool :=
  1 ≤ a.length && a.length ≤ 3 && a.all isdigit && ofNumeral 10 a ≤ 255

def isPort : List UInt8 → Bool
  | [y] => toupper y == 'A'.toUInt8 || toupper y == 'B'.toUInt8
  | _ => false

def isPortLine : List UInt8 → Bool
  | [y, n] => isPort [y] && isIndex 4 [n]
  | _ => false

/-- Prefix, and what may follow it. -/
def grammar : List (List UInt8 × (List UInt8 → Bool)) :=
  [(SK, isIndex 8), (RK, isIndex 8), (RPK, isIndex 8), (RE, isIndex 8), (RC, isIndex 8),
   (MK, isByte), (PK, List.isEmpty), (PI, List.isEmpty), (PA, isPort),
   (RP, fun a => isPort a || isPortLine a),
   (DB, fun a => a.isEmpty || isIndex 3 a), (WD, fun a => a.isEmpty || isIndex 4 a)]

def inGrammar (s : List UInt8) : Bool := grammar.any fun g => (argsOf g.1 s).any g.2

/-- Numbers `MK` takes although they are not one to three digits: nothing at all,
or digits behind blanks or a sign; behind a minus sign only zero fits a byte. -/
def LooseByte (a : List UInt8) : Prop :=
  a = [] ∨ ∃ ws sgn ds, a = ws ++ sgn ++ ds ∧ Numeric ws sgn ds ∧ a.length ≤ 3 ∧
    (ws ≠ [] ∨ sgn ≠ []) ∧ (sgn = [45] → ofNumeral 10 ds = 0)

/-- Strings that the handlers act on although the grammar does not have them. -/
def Stray (s : List UInt8) : Prop :=
  (∃ a, argsOf MK s = some a ∧ LooseByte a) ∨
    (∃ x, argsOf DB s = some [x] ∧ isdigit x = false) ∨
    (∃ x, argsOf WD s = some [x] ∧ isdigit x = false)

/-! ## Arguments of the grammar and of the code -/

theorem isIndex_asciiDigit {n i : Nat} (hi : i < n) (hn : n ≤ 10) : isIndex n [asciiDigit i] = true := by
  simp only [isIndex, asciiDigit_toNat (show i < 10 by omega), Bool.and_eq_true, decide_eq_true_eq]
  omega

theorem indexArg_of_isIndex {n : Nat} (hn : n ≤ 10) {a : List UInt8} (h : isIndex n a = true) :
    ∃ i : Fin n, indexArg n a = some i := by
  unfold isIndex at h
  split at h
  · rename_i c
    simp only [Bool.and_eq_true, decide_eq_true_eq] at h
    have hd : isdigit c = true := by rw [isdigit_iff]; omega
    have hv : digitVal c < n := by rw [digitVal]; omega
    exact ⟨⟨digitVal c, hv⟩, by simp [indexArg, hd, hv]⟩
  · cases h

theorem settingArg_of_indexArg {n : Nat} (hn : n ≤ 10) {a : List UInt8} {i : Fin n}
    (h : indexArg n a = some i) : settingArg n a = some i :=
  (settingArg_iff hn).mpr (.inl ((indexArg_iff hn).mp h))

theorem portArg_of_isPort {c : UInt8} (h : isPort [c] = true) : ∃ y, portArg c = some y := by
  simp only [isPort, Bool.or_eq_true, beq_iff_eq] at h
  unfold portArg
  rcases h with h | h
  · exact ⟨.a, if_pos h⟩
  · exact ⟨.b, by rw [if_neg (by rw [h]; decide), if_pos h]⟩

theorem isPort_of_portArg {c : UInt8} {y : Port} (h : portArg c = some y) : isPort [c] = true := by
  simpa [isPort] using portArg_upper h

/-- The value `strtoul` returns for a short digit string fits a byte. -/
theorem ulong_le_byte (neg : Bool) {v : Nat} (hv : v < 1000) :
    ulong neg v ≤ 255 ↔ if neg then v = 0 else v ≤ 255 := by
  have h32 : ¬ 2 ^ 32 ≤ v := by omega
  have hnat : (UInt32.ofNat v).toNat = v := ofNat_toNat_lt (by omega)
  rw [ulong, if_neg h32, UInt32.le_iff_toNat_le]
  cases neg
  · simp [hnat]
  · simp only [if_true, UInt32.toNat_sub, hnat, UInt32.toNat_zero]
    have : (255 : UInt32).toNat = 255 := rfl
    rw [this]
    omega

/-- What `MK` accepts: a documented byte, or a loose one. -/
theorem byteArg_isSome_iff (a : List UInt8) :
    (byteArg a).isSome = true ↔ isByte a = true ∨ LooseByte a := by
  have hnum : ∀ ws sgn ds, a = ws ++ sgn ++ ds → Numeric ws sgn ds → a.length ≤ 3 →
      (strtoul a).2 = [] ∧ ofNumeral 10 ds < 1000 ∧
        ((strtoul a).1 ≤ 255 ↔ if sgn == [45] then ofNumeral 10 ds = 0 else ofNumeral 10 ds ≤ 255) := by
    intro ws sgn ds ha hn hlen
    have hval := ofNumeral_lt hn.2.2.2
    have hds : ds.length ≤ 3 := by rw [ha, List.length_append] at hlen; omega
    have hpow : 10 ^ ds.length ≤ 10 ^ 3 := Nat.pow_le_pow_right (by decide) hds
    have hlt : ofNumeral 10 ds < 1000 := by omega
    rw [ha, strtoul_numeric hn]
    exact ⟨rfl, hlt, ulong_le_byte _ hlt⟩
  unfold byteArg
  refine ⟨fun h => ?_, fun hx => ?_⟩
  · split at h
    · rename_i hacc
      obtain ⟨hlen, hend, hval⟩ := hacc
      rcases (strtoul_end_iff a).mp hend with rfl | ⟨ws, sgn, ds, ha, hn⟩
      · exact .inr (.inl rfl)
      · obtain ⟨-, -, hle⟩ := hnum ws sgn ds ha hn hlen
        rw [hle] at hval
        by_cases hplain : ws = [] ∧ sgn = []
        · left
          obtain ⟨rfl, rfl⟩ := hplain
          have had : a = ds := by simpa using ha
          obtain ⟨-, -, hne, hdig⟩ := hn
          rw [← had] at hne hdig hval
          have hpos : 1 ≤ a.length := List.length_pos_of_ne_nil hne
          simp only [isByte, Bool.and_eq_true, decide_eq_true_eq, List.all_eq_true]
          exact ⟨⟨⟨hpos, hlen⟩, hdig⟩, by simpa using hval⟩
        · refine .inr (.inr ⟨ws, sgn, ds, ha, hn, hlen, ?_, ?_⟩)
          · by_contra hno
            exact hplain (by simpa using hno)
          · intro hs
            simpa [hs] using hval
    · cases h
  · rcases hx with hb | rfl | ⟨ws, sgn, ds, ha, hn, hlen, hsp, hneg⟩
    · simp only [isByte, Bool.and_eq_true, decide_eq_true_eq, List.all_eq_true] at hb
      obtain ⟨⟨⟨hpos, hlen⟩, hdig⟩, hval⟩ := hb
      have hn : Numeric [] [] a := ⟨by simp, .inl rfl, List.ne_nil_of_length_pos hpos, hdig⟩
      obtain ⟨hend, -, hle⟩ := hnum [] [] a (by simp) hn hlen
      rw [if_pos ⟨hlen, hend, hle.mpr (by simpa using hval)⟩]
      rfl
    · rfl
    · obtain ⟨hend, -, hle⟩ := hnum ws sgn ds ha hn hlen
      have hds : ds.length ≤ 2 := by
        rw [ha, List.length_append, List.length_append] at hlen
        rcases hsp with h | h
        · have := List.length_pos_of_ne_nil h; omega
        · have := List.length_pos_of_ne_nil h; omega
      have hval := ofNumeral_lt hn.2.2.2
      have hpow : 10 ^ ds.length ≤ 10 ^ 2 := Nat.pow_le_pow_right (by decide) hds
      have : (strtoul a).1 ≤ 255 := by
        rw [hle]
        split
        · rename_i h; exact hneg (by simpa using h)
        · omega
      rw [if_pos ⟨hlen, hend, this⟩]
      rfl

/-! ## What is accepted outside the grammar -/

/-- What the grammar allows after the prefix of a handler. -/
def HandlerFn.documented : HandlerFn → List UInt8 → Bool
  | .setRelay | .clearRelay | .readSingleRelay | .readEventCounter | .readAndResetEventCounter =>
    isIndex 8
  | .writeRelayPort => isByte
  | .readRelayPortDecimal | .readCombinedPortsDecimal => List.isEmpty
  | .readSinglePortDecimal => isPort
  | .readSinglePort => fun a => isPort a || isPortLine a
  | .debounceSetting => fun a => a.isEmpty || isIndex 3 a
  | .watchdogSetting => fun a => a.isEmpty || isIndex 4 a

theorem documented_mem (h : HandlerFn) : (h.commandPrefix, h.documented) ∈ grammar := by
  cases h <;> simp [grammar, HandlerFn.commandPrefix, HandlerFn.documented]

theorem documented_false {s : List UInt8} (hg : inGrammar s = false) {h : HandlerFn}
    {a : List UInt8} (ha : argsOf h.commandPrefix s = some a) : h.documented a = false := by
  simp only [inGrammar, List.any_eq_false] at hg
  simpa [ha] using hg _ (documented_mem h)

theorem documented_of_inGrammar {s : List UInt8} (hg : inGrammar s = true) :
    ∃ (h : HandlerFn) (a : List UInt8), argsOf h.commandPrefix s = some a ∧ h.documented a = true := by
  have hall : ∀ g ∈ grammar, ∃ h : HandlerFn, (h.commandPrefix, h.documented) = g := by
    simp only [grammar, List.forall_mem_cons]
    exact ⟨⟨.setRelay, rfl⟩, ⟨.clearRelay, rfl⟩, ⟨.readSingleRelay, rfl⟩, ⟨.readEventCounter, rfl⟩,
      ⟨.readAndResetEventCounter, rfl⟩, ⟨.writeRelayPort, rfl⟩, ⟨.readRelayPortDecimal, rfl⟩,
      ⟨.readCombinedPortsDecimal, rfl⟩, ⟨.readSinglePortDecimal, rfl⟩, ⟨.readSinglePort, rfl⟩,
      ⟨.debounceSetting, rfl⟩, ⟨.watchdogSetting, rfl⟩, by simp⟩
  simp only [inGrammar, List.any_eq_true, Option.any_eq_true] at hg
  obtain ⟨g, hmem, a, ha, hd⟩ := hg
  obtain ⟨h, rfl⟩ := hall g hmem
  exact ⟨h, a, ha, hd⟩

theorem isIndex_of_indexArg {n : Nat} (hn : n ≤ 10) {a : List UInt8} {i : Fin n}
    (h : indexArg n a = some i) : isIndex n a = true := by
  rw [(indexArg_iff hn).mp h]
  exact isIndex_asciiDigit i.isLt hn

/-- The arguments of a setting: a documented digit, or a stray character for setting 0. -/
theorem isIndex_of_settingArg {n : Nat} (hn : n ≤ 10) {a : List UInt8} {i : Fin n}
    (h : settingArg n a = some i) :
    isIndex n a = true ∨ (i.val = 0 ∧ ∃ x, isdigit x = false ∧ a = [x]) := by
  rcases (settingArg_iff hn).mp h with rfl | hx
  · exact .inl (isIndex_asciiDigit i.isLt hn)
  · exact .inr hx

/-- An argument a handler accepts is documented, up to the three lax checks. -/
theorem documented_of_decode {h : HandlerFn} {a : List UInt8} {c : Command}
    (hc : h.decode a = some c) :
    h.documented a = true ∨
      (h = .writeRelayPort ∧ LooseByte a ∧ ∃ v, c = .writeRelayPort v) ∨
      (h = .debounceSetting ∧ (∃ x, a = [x] ∧ isdigit x = false) ∧ c = .setDebounce 0) ∨
      (h = .watchdogSetting ∧ (∃ x, a = [x] ∧ isdigit x = false) ∧ c = .setWatchdog 0) := by
  cases h with
  | setRelay | clearRelay | readSingleRelay | readEventCounter | readAndResetEventCounter =>
    simp only [HandlerFn.decode, Option.map_eq_some_iff] at hc
    obtain ⟨i, hi, -⟩ := hc
    exact .inl (isIndex_of_indexArg (by decide) hi)
  | writeRelayPort =>
    simp only [HandlerFn.decode, Option.map_eq_some_iff] at hc
    obtain ⟨v, hv, rfl⟩ := hc
    rcases (byteArg_isSome_iff a).mp (by simp [hv]) with hb | hl
    · exact .inl hb
    · exact .inr (.inl ⟨rfl, hl, v, rfl⟩)
  | readRelayPortDecimal | readCombinedPortsDecimal =>
    simp only [HandlerFn.decode] at hc
    split at hc
    · rename_i h
      exact .inl (by simp [HandlerFn.documented, h])
    · cases hc
  | readSinglePort =>
    left
    simp only [HandlerFn.decode] at hc
    split at hc
    · simp only [Option.map_eq_some_iff] at hc
      obtain ⟨y, hy, -⟩ := hc
      simp [HandlerFn.documented, isPort_of_portArg hy]
    · simp only [Option.bind_eq_some_iff, Option.map_eq_some_iff] at hc
      obtain ⟨y, hy, i, hi, -⟩ := hc
      simp [HandlerFn.documented, isPortLine, isPort_of_portArg hy,
        isIndex_of_indexArg (by decide) hi]
    · cases hc
  | readSinglePortDecimal =>
    left
    simp only [HandlerFn.decode] at hc
    split at hc
    · simp only [Option.map_eq_some_iff] at hc
      obtain ⟨y, hy, -⟩ := hc
      exact isPort_of_portArg hy
    · cases hc
  | debounceSetting =>
    simp only [HandlerFn.decode] at hc
    split at hc
    · rename_i h
      exact .inl (by simp [HandlerFn.documented, h])
    · simp only [Option.map_eq_some_iff] at hc
      obtain ⟨i, hi, rfl⟩ := hc
      rcases isIndex_of_settingArg (by decide) hi with hd | ⟨h0, x, hx, rfl⟩
      · exact .inl (by simp [HandlerFn.documented, hd])
      · exact .inr (.inr (.inl ⟨rfl, ⟨x, rfl, hx⟩, congrArg _ (Fin.ext h0)⟩))
  | watchdogSetting =>
    simp only [HandlerFn.decode] at hc
    split at hc
    · rename_i h
      exact .inl (by simp [HandlerFn.documented, h])
    · simp only [Option.map_eq_some_iff] at hc
      obtain ⟨i, hi, rfl⟩ := hc
      rcases isIndex_of_settingArg (by decide) hi with hd | ⟨h0, x, hx, rfl⟩
      · exact .inl (by simp [HandlerFn.documented, hd])
      · exact .inr (.inr (.inr ⟨rfl, ⟨x, rfl, hx⟩, congrArg _ (Fin.ext h0)⟩))

/-- A documented argument is accepted. -/
theorem decode_of_documented {h : HandlerFn} {a : List UInt8} (hd : h.documented a = true) :
    ∃ c, h.decode a = some c := by
  cases h with
  | setRelay | clearRelay | readSingleRelay | readEventCounter | readAndResetEventCounter =>
    obtain ⟨i, hi⟩ := indexArg_of_isIndex (by decide) hd
    exact ⟨_, by rw [HandlerFn.decode, hi]; rfl⟩
  | writeRelayPort =>
    obtain ⟨v, hv⟩ := Option.isSome_iff_exists.mp ((byteArg_isSome_iff a).mpr (.inl hd))
    exact ⟨_, by rw [HandlerFn.decode, hv]; rfl⟩
  | readRelayPortDecimal | readCombinedPortsDecimal =>
    exact ⟨_, by rw [HandlerFn.decode, if_pos (List.isEmpty_iff.mp hd)]⟩
  | readSinglePortDecimal =>
    simp only [HandlerFn.documented] at hd
    unfold isPort at hd
    split at hd
    · rename_i y
      obtain ⟨port, hp⟩ := portArg_of_isPort hd
      exact ⟨_, by rw [HandlerFn.decode, hp]; rfl⟩
    · cases hd
  | readSinglePort =>
    simp only [HandlerFn.documented, Bool.or_eq_true] at hd
    rcases hd with hd | hd
    · unfold isPort at hd
      split at hd
      · rename_i y
        obtain ⟨port, hp⟩ := portArg_of_isPort hd
        exact ⟨_, by rw [HandlerFn.decode, hp]; rfl⟩
      · cases hd
    · unfold isPortLine at hd
      split at hd
      · rename_i y n
        rw [Bool.and_eq_true] at hd
        obtain ⟨port, hp⟩ := portArg_of_isPort hd.1
        obtain ⟨i, hi⟩ := indexArg_of_isIndex (by decide) hd.2
        exact ⟨_, by rw [HandlerFn.decode, hp, Option.bind_some, hi]; rfl⟩
      · cases hd
  | debounceSetting | watchdogSetting =>
    simp only [HandlerFn.documented, Bool.or_eq_true, List.isEmpty_iff] at hd
    rcases hd with rfl | hd
    · exact ⟨_, rfl⟩
    · obtain ⟨i, hi⟩ := indexArg_of_isIndex (by decide) hd
      have hne : a ≠ [] := by rintro rfl; cases hd
      exact ⟨_, by rw [HandlerFn.decode, if_neg hne, settingArg_of_indexArg (by decide) hi]; rfl⟩

/-- **Outside the grammar** the processor recognises three commands only. -/
theorem decode_outside {s : List UInt8} (hg : inGrammar s = false) {c : Command}
    (h : decode s = some c) :
    (∃ a v, argsOf MK s = some a ∧ LooseByte a ∧ c = .writeRelayPort v) ∨
      (∃ x, argsOf DB s = some [x] ∧ isdigit x = false ∧ c = .setDebounce 0) ∨
      (∃ x, argsOf WD s = some [x] ∧ isdigit x = false ∧ c = .setWatchdog 0) := by
  obtain ⟨a, ha, hc⟩ := (decode_iff s c).mp h
  rcases documented_of_decode hc with hd | ⟨hh, hl, v, rfl⟩ | ⟨hh, ⟨x, rfl, hx⟩, rfl⟩ |
    ⟨hh, ⟨x, rfl, hx⟩, rfl⟩
  · rw [documented_false hg ha] at hd
    cases hd
  · exact .inl ⟨a, v, ha, hl, rfl⟩
  · exact .inr (.inl ⟨x, ha, hx, rfl⟩)
  · exact .inr (.inr ⟨x, ha, hx, rfl⟩)

theorem strayArg {n : Nat} {x : UInt8} (hn : 0 < n) (hx : isdigit x = false) :
    settingArg n [x] = some ⟨0, hn⟩ := by
  simp [settingArg, hx, hn]

/-- What the stray strings are taken for. -/
theorem decode_strayByte {s a : List UInt8} (ha : argsOf MK s = some a) (hl : LooseByte a) :
    ∃ v, decode s = some (.writeRelayPort v) := by
  obtain ⟨v, hv⟩ := Option.isSome_iff_exists.mp ((byteArg_isSome_iff a).mpr (.inr hl))
  exact ⟨v, decode_of_args (h := .writeRelayPort) ha (by rw [HandlerFn.decode, hv]; rfl)⟩

theorem decode_strayDebounce {s : List UInt8} {x : UInt8} (ha : argsOf DB s = some [x])
    (hx : isdigit x = false) : decode s = some (.setDebounce 0) :=
  decode_of_args (h := .debounceSetting) ha
    (by rw [HandlerFn.decode, if_neg (by simp), strayArg (by decide) hx]; rfl)

theorem decode_strayWatchdog {s : List UInt8} {x : UInt8} (ha : argsOf WD s = some [x])
    (hx : isdigit x = false) : decode s = some (.setWatchdog 0) :=
  decode_setWatchdog_iff.mpr ⟨x, ha, strayArg (by decide) hx⟩

/-- **The accepted strings** are those of the grammar and the stray ones. -/
theorem decode_isSome_iff (s : List UInt8) :
    (∃ c, decode s = some c) ↔ inGrammar s = true ∨ Stray s := by
  refine ⟨fun hy => ?_, fun hy => ?_⟩
  · obtain ⟨c, h⟩ := hy
    by_cases hg : inGrammar s = true
    · exact .inl hg
    · rcases decode_outside (by simpa using hg) h with ⟨a, v, ha, hl, -⟩ | ⟨x, ha, hx, -⟩ | ⟨x, ha, hx, -⟩
      · exact .inr (.inl ⟨a, ha, hl⟩)
      · exact .inr (.inr (.inl ⟨x, ha, hx⟩))
      · exact .inr (.inr (.inr ⟨x, ha, hx⟩))
  · rcases hy with hg | ⟨a, ha, hl⟩ | ⟨x, ha, hx⟩ | ⟨x, ha, hx⟩
    · obtain ⟨h, a, ha, hd⟩ := documented_of_inGrammar hg
      obtain ⟨c, hc⟩ := decode_of_documented hd
      exact ⟨c, decode_of_args ha hc⟩
    · obtain ⟨v, hv⟩ := decode_strayByte ha hl
      exact ⟨_, hv⟩
    · exact ⟨_, decode_strayDebounce ha hx⟩
    · exact ⟨_, decode_strayWatchdog ha hx⟩

end Relacon.L3
