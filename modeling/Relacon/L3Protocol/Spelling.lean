import Relacon.L3Protocol.Grammar
import Relacon.L3Protocol.Inputs

/-!
# How a command is spelled

`render` writes a command the way a host would send it; `Spells a c` are all the
argument strings the documentation has for it. `commands_spelled`: the documented
strings read as `c` are the prefix of `c` and an argument that spells it, letters
in either case, and what `render` writes is one of them. Only `MK` has more than
one spelling up to case, with or without leading zeros.
-/
namespace Relacon.L3
open Relacon.Core

/-! ## Writing a command -/

def Command.argument : Command → List UInt8
  | .setRelay n | .clearRelay n | .readSingleRelay n | .readEventCounter n
  | .readAndResetEventCounter n => [asciiDigit n]
  | .writeRelayPort v => numeral 10 3 v.toNat
  | .readRelayPort | .readInputs | .getDebounce | .getWatchdog => []
  | .readInputLine y n => [y.letter, asciiDigit n]
  | .readInputPort y | .readInputPortDecimal y => [y.letter]
  | .setDebounce i => [asciiDigit i]
  | .setWatchdog i => [asciiDigit i]

def render (c : Command) : List UInt8 := c.handler.commandPrefix ++ c.argument

/-- One to three digits for `MK`; everything else is fixed up to case. -/
def Spells (a : List UInt8) : Command → Prop
  | .writeRelayPort v => 1 ≤ a.length ∧ a.length ≤ 3 ∧ (∀ x ∈ a, isdigit x = true) ∧
      ofNumeral 10 a = v.toNat
  | c => a.map toupper = c.argument

/-! ## Arguments -/

theorem toupper_asciiDigit {d : Nat} (hd : d < 10) (x : UInt8) :
    toupper x = asciiDigit d ↔ x = asciiDigit d :=
  toupper_eq_iff (by rw [asciiDigit_toNat hd]; omega)

theorem map_toupper_digit {d : Nat} (hd : d < 10) (a : List UInt8) :
    a.map toupper = [asciiDigit d] ↔ a = [asciiDigit d] := by
  rw [List.map_eq_singleton_iff]
  refine ⟨fun h => ?_, fun h => ?_⟩
  · obtain ⟨x, rfl, hx⟩ := h
    rw [(toupper_asciiDigit hd x).mp hx]
  · exact ⟨_, h, (toupper_asciiDigit hd _).mpr rfl⟩

theorem portArg_iff {x : UInt8} {y : Port} : portArg x = some y ↔ toupper x = y.letter := by
  refine ⟨fun h => ?_, portArg_letter⟩
  unfold portArg at h
  split at h
  · cases h
    assumption
  · split at h
    · cases h
      assumption
    · cases h

/-- The value `MK` takes from one to three digits. -/
theorem byteArg_digits {a : List UInt8} (hpos : 1 ≤ a.length) (hlen : a.length ≤ 3)
    (hdig : ∀ x ∈ a, isdigit x = true) (v : UInt8) :
    byteArg a = some v ↔ ofNumeral 10 a = v.toNat := by
  have hn : Numeric [] [] a := ⟨by simp, .inl rfl, List.ne_nil_of_length_pos hpos, hdig⟩
  have hpow : 10 ^ a.length ≤ 10 ^ 3 := Nat.pow_le_pow_right (by decide) hlen
  have hlt : ofNumeral 10 a < 1000 := (ofNumeral_lt hdig).trans_le hpow
  have hstr : strtoul a = (UInt32.ofNat (ofNumeral 10 a), []) := by
    have hconv := strtoul_numeric hn
    rw [List.nil_append, List.nil_append] at hconv
    rw [hconv, ulong, if_neg (by omega)]
    rfl
  have hnat : (UInt32.ofNat (ofNumeral 10 a)).toNat = ofNumeral 10 a := ofNat_toNat_lt (by omega)
  have hbyte : UInt32.ofNat (ofNumeral 10 a) ≤ 255 ↔ ofNumeral 10 a ≤ 255 := by
    rw [UInt32.le_iff_toNat_le, hnat]
    rfl
  have hv := v.toNat_lt
  simp only [byteArg, hstr, hbyte]
  by_cases hle : ofNumeral 10 a ≤ 255
  · rw [if_pos ⟨hlen, trivial, hle⟩, Option.some.injEq, ← UInt8.toNat_inj, UInt32.toNat_toUInt8, hnat,
      Nat.mod_eq_of_lt (by omega)]
  · rw [if_neg (fun h => hle h.2.2)]
    refine iff_of_false (Option.some_ne_none v).symm ?_
    omega

theorem indexed_spelling {n : Nat} (hn : n ≤ 10) {f : Fin n → Command}
    (hf : Function.Injective f) (a : List UInt8) (i : Fin n) :
    (isIndex n a = true ∧ (indexArg n a).map f = some (f i)) ↔ a.map toupper = [asciiDigit i] := by
  rw [map_toupper_digit (by omega)]
  refine ⟨fun h => ?_, fun h => ?_⟩
  · obtain ⟨j, hj, hji⟩ := Option.map_eq_some_iff.mp h.2
    rw [(indexArg_iff hn).mp hj, hf hji]
  · subst h
    refine ⟨isIndex_asciiDigit i.isLt hn, ?_⟩
    rw [(indexArg_iff hn).mpr rfl]
    rfl

theorem setting_spelling {n : Nat} (hn : n ≤ 10) {f : Fin n → Command} {q : Command}
    (hf : Function.Injective f) (hq : ∀ i, q ≠ f i) (a : List UInt8) (i : Fin n) :
    ((a.isEmpty || isIndex n a) = true ∧
      (if a = [] then some q else (settingArg n a).map f) = some (f i)) ↔
      a.map toupper = [asciiDigit i] := by
  rw [map_toupper_digit (by omega)]
  refine ⟨fun h => ?_, fun h => ?_⟩
  · obtain ⟨hdoc, hset⟩ := h
    split at hset
    · exact (hq i (Option.some.inj hset)).elim
    · rename_i hne
      have hidx : isIndex n a = true := by simpa [hne] using hdoc
      obtain ⟨k, hk⟩ := indexArg_of_isIndex hn hidx
      rw [settingArg_of_indexArg hn hk, Option.map_some, Option.some.injEq] at hset
      rw [(indexArg_iff hn).mp hk, hf hset]
  · subst h
    rw [if_neg (by simp), (settingArg_iff hn).mpr (.inl rfl), isIndex_asciiDigit i.isLt hn]
    exact ⟨Bool.or_true _, rfl⟩

theorem query_spelling {n : Nat} {f : Fin n → Command} {q : Command} (hq : ∀ i, q ≠ f i)
    (a : List UInt8) : ((a.isEmpty || isIndex n a) = true ∧
      (if a = [] then some q else (settingArg n a).map f) = some q) ↔ a.map toupper = [] := by
  rw [List.map_eq_nil_iff]
  refine ⟨fun h => ?_, fun h => ?_⟩
  · by_contra hne
    rw [if_neg hne] at h
    obtain ⟨i, -, hi⟩ := Option.map_eq_some_iff.mp h.2
    exact hq i hi.symm
  · subst h
    exact ⟨rfl, rfl⟩

theorem readPort_spelling (a : List UInt8) (y : Port) :
    ((isPort a || isPortLine a) = true ∧
      HandlerFn.readSinglePort.decode a = some (.readInputPort y)) ↔ a.map toupper = [y.letter] := by
  rw [List.map_eq_singleton_iff]
  refine ⟨fun h => ?_, fun h => ?_⟩
  · have hc := h.2
    simp only [HandlerFn.decode] at hc
    split at hc
    · rename_i x
      obtain ⟨z, hz, hzy⟩ := Option.map_eq_some_iff.mp hc
      cases hzy
      exact ⟨x, rfl, portArg_iff.mp hz⟩
    · simp [Option.bind_eq_some_iff] at hc
    · cases hc
  · obtain ⟨x, rfl, hx⟩ := h
    have hport := portArg_iff.mpr hx
    rw [isPort_of_portArg hport, HandlerFn.decode, hport]
    exact ⟨rfl, rfl⟩

theorem readLine_spelling (a : List UInt8) (y : Port) (n : Fin 4) :
    ((isPort a || isPortLine a) = true ∧
      HandlerFn.readSinglePort.decode a = some (.readInputLine y n)) ↔
      a.map toupper = [y.letter, asciiDigit n] := by
  have hn : n.val < 10 := by omega
  refine ⟨fun h => ?_, fun h => ?_⟩
  · have hc := h.2
    simp only [HandlerFn.decode] at hc
    split at hc
    · simp [Option.map_eq_some_iff] at hc
    · rename_i x z
      obtain ⟨p, hp, hline⟩ := Option.bind_eq_some_iff.mp hc
      obtain ⟨m, hm, hmn⟩ := Option.map_eq_some_iff.mp hline
      cases hmn
      have hz := List.singleton_inj.mp ((indexArg_iff (by decide)).mp hm)
      rw [List.map_cons, List.map_singleton, portArg_iff.mp hp, hz, (toupper_asciiDigit hn _).mpr rfl]
    · cases hc
  · obtain ⟨x, t, rfl, hx, ht⟩ := List.map_eq_cons_iff.mp h
    obtain ⟨z, rfl, hz⟩ := List.map_eq_singleton_iff.mp ht
    have hport := portArg_iff.mpr hx
    rw [(toupper_asciiDigit hn z).mp hz, HandlerFn.decode, hport, Option.bind_some,
      (indexArg_iff (by decide)).mpr rfl, isPortLine, isPort_of_portArg hport,
      isIndex_asciiDigit n.isLt (by decide)]
    exact ⟨Bool.or_true _, rfl⟩

/-- What a handler documents, and takes for the command `c`. -/
theorem spells_iff (a : List UInt8) (c : Command) :
    (c.handler.documented a = true ∧ c.handler.decode a = some c) ↔ Spells a c := by
  cases c with
  | setRelay n | clearRelay n | readSingleRelay n | readEventCounter n | readAndResetEventCounter n =>
    exact indexed_spelling (by decide) (fun _ _ h => by cases h; rfl) a n
  | writeRelayPort v =>
    refine ⟨fun h => ?_, fun h => ?_⟩
    · have hdoc : isByte a = true := h.1
      have hdec : (byteArg a).map Command.writeRelayPort = some (.writeRelayPort v) := h.2
      obtain ⟨w, hw, hwv⟩ := Option.map_eq_some_iff.mp hdec
      cases hwv
      simp only [isByte, Bool.and_eq_true, decide_eq_true_eq, List.all_eq_true] at hdoc
      obtain ⟨⟨⟨hpos, hlen⟩, hdig⟩, -⟩ := hdoc
      exact ⟨hpos, hlen, hdig, (byteArg_digits hpos hlen hdig v).mp hw⟩
    · obtain ⟨hpos, hlen, hdig, hval⟩ := h
      have hv := v.toNat_lt
      refine ⟨?_, ?_⟩
      · show isByte a = true
        simp only [isByte, Bool.and_eq_true, decide_eq_true_eq, List.all_eq_true]
        exact ⟨⟨⟨hpos, hlen⟩, hdig⟩, by omega⟩
      · show (byteArg a).map Command.writeRelayPort = _
        rw [(byteArg_digits hpos hlen hdig v).mpr hval]
        rfl
  | readRelayPort | readInputs =>
    simp only [Command.handler, HandlerFn.documented, HandlerFn.decode, Spells, Command.argument,
      List.isEmpty_iff, List.map_eq_nil_iff]
    exact ⟨fun h => h.1, fun h => ⟨h, if_pos h⟩⟩
  | readInputLine y n => exact readLine_spelling a y n
  | readInputPort y => exact readPort_spelling a y
  | readInputPortDecimal y =>
    simp only [Command.handler, HandlerFn.documented, HandlerFn.decode, Spells, Command.argument,
      List.map_eq_singleton_iff]
    refine ⟨fun h => ?_, fun h => ?_⟩
    · have hc := h.2
      split at hc
      · rename_i x
        obtain ⟨z, hz, hzy⟩ := Option.map_eq_some_iff.mp hc
        cases hzy
        exact ⟨x, rfl, portArg_iff.mp hz⟩
      · cases hc
    · obtain ⟨x, rfl, hx⟩ := h
      have hport := portArg_iff.mpr hx
      refine ⟨isPort_of_portArg hport, ?_⟩
      show (portArg x).map Command.readInputPortDecimal = _
      rw [hport]
      rfl
  | getDebounce => exact query_spelling (f := .setDebounce) (q := .getDebounce) (fun _ h => by cases h) a
  | setDebounce i =>
    exact setting_spelling (by decide) (f := .setDebounce) (q := .getDebounce)
      (fun _ _ h => by cases h; rfl) (fun _ h => by cases h) a i
  | getWatchdog => exact query_spelling (f := .setWatchdog) (q := .getWatchdog) (fun _ h => by cases h) a
  | setWatchdog i =>
    exact setting_spelling (by decide) (f := .setWatchdog) (q := .getWatchdog)
      (fun _ _ h => by cases h; rfl) (fun _ h => by cases h) a i

/-! ## Command strings -/

/-- The strings of the grammar with the reading `c`. -/
theorem documented_iff (s : List UInt8) (c : Command) :
    (inGrammar s = true ∧ decode s = some c) ↔
      ∃ a, argsOf c.handler.commandPrefix s = some a ∧ Spells a c := by
  refine ⟨fun hs => ?_, fun hs => ?_⟩
  · obtain ⟨hg, hd⟩ := hs
    obtain ⟨h, a, ha, hdoc⟩ := documented_of_inGrammar hg
    obtain ⟨c', hc'⟩ := decode_of_documented hdoc
    rw [decode_of_args ha hc', Option.some.injEq] at hd
    subst hd
    have hh := handler_of_decode hc'
    subst hh
    exact ⟨a, ha, (spells_iff a c').mp ⟨hdoc, hc'⟩⟩
  · obtain ⟨a, ha, hspell⟩ := hs
    obtain ⟨hdoc, hdec⟩ := (spells_iff a c).mpr hspell
    refine ⟨?_, decode_of_args ha hdec⟩
    simp only [inGrammar, List.any_eq_true, Option.any_eq_true]
    exact ⟨_, documented_mem c.handler, a, ha, hdoc⟩

theorem argument_upper (c : Command) : c.argument.map toupper = c.argument := by
  have hdigit : ∀ {d : Nat}, d < 10 → toupper (asciiDigit d) = asciiDigit d :=
    fun hd => (toupper_asciiDigit hd _).mpr rfl
  have hletter : ∀ y : Port, toupper y.letter = y.letter := fun y => by cases y <;> rfl
  cases c with
  | writeRelayPort v =>
    rw [Command.argument, List.map_congr_left (g := id), List.map_id]
    intro x hx
    exact toupper_of_isdigit (numeral_isdigit (by decide) (by decide) 3 v.toNat x hx)
  | readInputLine y n => simp [Command.argument, hletter, hdigit (show n.val < 10 by omega)]
  | readInputPort y | readInputPortDecimal y => simp [Command.argument, hletter]
  | readRelayPort | readInputs | getDebounce | getWatchdog => rfl
  | setRelay n | clearRelay n | readSingleRelay n | readEventCounter n | readAndResetEventCounter n
  | setDebounce n | setWatchdog n => simp [Command.argument, hdigit (show n.val < 10 by omega)]

theorem spells_argument (c : Command) : Spells c.argument c := by
  cases c with
  | writeRelayPort v =>
    have hv := v.toNat_lt
    refine ⟨by simp [Command.argument], by simp [Command.argument], ?_, ?_⟩
    · exact numeral_isdigit (by decide) (by decide) 3 v.toNat
    · rw [Command.argument, ofNumeral_numeral (by decide) (by decide), Nat.mod_eq_of_lt (by omega)]
  | _ => exact argument_upper _

theorem argsOf_render (c : Command) : argsOf c.handler.commandPrefix (render c) = some c.argument := by
  rw [argsOf_eq_some_iff, render, List.map_append, prefix_upper]
  exact ⟨List.prefix_append _ _, List.drop_left⟩

/-- A command is read back from its string. -/
theorem decode_render (c : Command) : decode (render c) = some c :=
  ((documented_iff _ c).mpr ⟨_, argsOf_render c, spells_argument c⟩).2

theorem render_length (c : Command) : (render c).length ≤ MAX_CMD_STR_SIZE :=
  decode_length (decode_render c)

theorem render_no_nul (c : Command) : ∀ x ∈ render c, x ≠ 0 := by
  have hpre : ∀ h : HandlerFn, ∀ x ∈ h.commandPrefix, x ≠ 0 := by
    intro h
    cases h <;> exact ascii_no_nul rfl
  have hdigit : ∀ {d : Nat}, d < 10 → asciiDigit d ≠ 0 :=
    fun hd => isdigit_ne_zero (isdigit_asciiDigit hd)
  have hletter : ∀ y : Port, y.letter ≠ 0 := fun y => by cases y <;> decide
  intro x hx
  rw [render, List.mem_append] at hx
  rcases hx with hx | hx
  · exact hpre _ x hx
  · cases c with
    | writeRelayPort v => exact isdigit_ne_zero (numeral_isdigit (by decide) (by decide) 3 v.toNat x hx)
    | readInputLine y n =>
      rcases List.mem_pair.mp hx with rfl | rfl
      · exact hletter y
      · exact hdigit (by omega)
    | readInputPort y | readInputPortDecimal y =>
      rw [List.mem_singleton.mp hx]
      exact hletter y
    | readRelayPort | readInputs | getDebounce | getWatchdog => cases hx
    | setRelay n | clearRelay n | readSingleRelay n | readEventCounter n | readAndResetEventCounter n
    | setDebounce n | setWatchdog n =>
      rw [List.mem_singleton.mp hx]
      exact hdigit (by omega)

/-- **Commands and documented strings**: which strings are read as `c`, and that
`render` writes one of them, short enough and without a NUL. -/
theorem commands_spelled :
    (∀ s c, (inGrammar s = true ∧ decode s = some c) ↔
      ∃ a, argsOf c.handler.commandPrefix s = some a ∧ Spells a c) ∧
    (∀ c, inGrammar (render c) = true ∧ decode (render c) = some c ∧
      (render c).length ≤ MAX_CMD_STR_SIZE ∧ ∀ x ∈ render c, x ≠ 0) ∧
    Function.Injective render := by
  refine ⟨documented_iff, fun c => ?_, fun c c' h => ?_⟩
  · obtain ⟨hg, hd⟩ := (documented_iff _ c).mpr ⟨_, argsOf_render c, spells_argument c⟩
    exact ⟨hg, hd, render_length c, render_no_nul c⟩
  · have hd := decode_render c
    rw [h, decode_render, Option.some.injEq] at hd
    exact hd.symm

example : render (.writeRelayPort 7) = ascii ("MK007".toList) := by decide

end Relacon.L3
