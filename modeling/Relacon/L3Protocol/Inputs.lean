import Relacon.L3Protocol.Answers
import Relacon.L3Protocol.Syntax

/-!
# The digital inputs against the pin table

`pin r y n` is the MCU pin of input `yn`, read from the two input registers. All
the ways to see an input go through `BoardReadDigitalInputs`, whose bit
`y.channel n` is that pin (`inputs_pin`); the ports, the encoders and the event
counters take its bits from there. `inputs_agree` collects the views, and says
that the rest of the two registers is not looked at.
-/
namespace Relacon.L3
open Relacon.Core Relacon.L1 Relacon.L2

/-- The pin table: A0..A3 are PB0, PB1, PA8 and PB3, and B0..B3 are PB4..PB7. -/
def pin (r : Readings) : Port → Fin 4 → Bool
  | .a, 0 => r.gpioB.toNat.testBit 0
  | .a, 1 => r.gpioB.toNat.testBit 1
  | .a, 2 => r.gpioA.toNat.testBit 8
  | .a, 3 => r.gpioB.toNat.testBit 3
  | .b, n => r.gpioB.toNat.testBit (4 + n)

def Port.letter : Port → UInt8
  | .a => 'A'.toUInt8
  | .b => 'B'.toUInt8

/-- The event counter of an input. -/
def Port.channel : Port → Fin 4 → Fin 8
  | .a, n => ⟨n, by omega⟩
  | .b, n => ⟨4 + n, by omega⟩

/-- The value of four inputs, the first one the lowest bit. -/
def portNumber (r : Readings) (y : Port) : Nat :=
  (pin r y 0).toNat + 2 * (pin r y 1).toNat + 4 * (pin r y 2).toNat + 8 * (pin r y 3).toNat

def bitChar (b : Bool) : UInt8 := if b then '1'.toUInt8 else '0'.toUInt8

/-! ## One sample of the inputs -/

theorem bitSet_inputs (r : Readings) {i : Nat} (hi : i < 8) : bitSet (boardReadDigitalInputs r) i =
    (r.gpioB.toNat.testBit i && PIN_INPUT_BANK1_ALL.toNat.testBit i ||
      r.gpioA.toNat.testBit (6 + i) && PIN_INPUT_BANK2_ALL.toNat.testBit (6 + i)) := by
  have hsix : (6 : UInt32).toNat % 32 = 6 := rfl
  rw [bitSet_eq_testBit, boardReadDigitalInputs, UInt32.toNat_toUInt8, Nat.testBit_mod_two_pow,
    decide_eq_true hi, Bool.true_and, UInt32.toNat_or, Nat.testBit_or, UInt32.toNat_and,
    Nat.testBit_and, UInt32.toNat_shiftRight, hsix, Nat.testBit_shiftRight, UInt32.toNat_and,
    Nat.testBit_and]

/-- Each bit of the sample is one pin. -/
theorem inputs_pin (r : Readings) (y : Port) (n : Fin 4) :
    bitSet (boardReadDigitalInputs r) (y.channel n) = pin r y n := by
  have hbank1 : ∀ i : Fin 8, PIN_INPUT_BANK1_ALL.toNat.testBit i = decide (i ≠ 2) := by decide
  have hbank2 : ∀ i : Fin 8, PIN_INPUT_BANK2_ALL.toNat.testBit (6 + i) = decide (i = 2) := by decide
  rw [bitSet_inputs r (y.channel n).isLt, hbank1, hbank2]
  cases y with
  | a =>
    match n with
    | 0 | 1 | 2 | 3 => simp [Port.channel, pin]
  | b =>
    have hne : Port.b.channel n ≠ 2 := by
      intro h
      have := congrArg Fin.val h
      simp [Port.channel] at this
      omega
    rw [decide_eq_true hne, decide_eq_false hne, Bool.and_true, Bool.and_false, Bool.or_false]
    rfl

theorem value_pin (r : Readings) (y : Port) (n : Fin 4) : bitSet (y.value r) n = pin r y n := by
  rw [← inputs_pin, bitSet_eq_testBit, bitSet_eq_testBit, Port.value_toNat]
  cases y with
  | a => exact (Nat.testBit_mod_two_pow _ 4 n).trans (by simp [Port.channel])
  | b => exact (Nat.testBit_div_two_pow (n := 4) _ n).trans (by rw [Nat.add_comm]; rfl)

/-- A number below 16 from its bits. -/
theorem toNat_bits {v : UInt8} (hv : v.toNat < 16) : v.toNat = (bitSet v 0).toNat +
    2 * (bitSet v 1).toNat + 4 * (bitSet v 2).toNat + 8 * (bitSet v 3).toNat := by
  simp only [bitSet_eq_testBit, Nat.toNat_testBit]
  omega

theorem value_portNumber (r : Readings) (y : Port) : (y.value r).toNat = portNumber r y := by
  have hpin := value_pin r y
  rw [toNat_bits (y.value_lt r), portNumber, ← hpin 0, ← hpin 1, ← hpin 2, ← hpin 3]
  rfl

theorem inputs_toNat (r : Readings) :
    (boardReadDigitalInputs r).toNat = portNumber r .a + 16 * portNumber r .b := by
  rw [← value_portNumber, ← value_portNumber, Port.value_toNat, Port.value_toNat]
  simp only
  omega

theorem numeral_bits (r : Readings) (y : Port) : numeral 2 4 (y.value r).toNat =
    [bitChar (pin r y 3), bitChar (pin r y 2), bitChar (pin r y 1), bitChar (pin r y 0)] := by
  have hpin := value_pin r y
  rw [← map_binary, ← hpin 0, ← hpin 1, ← hpin 2, ← hpin 3]
  simp only [bitSet_eq_testBit]
  rfl

theorem portArg_letter {c : UInt8} {y : Port} (h : toupper c = y.letter) : portArg c = some y := by
  rw [portArg, h]
  cases y <;> rfl

/-! ## The pins that are not inputs -/

theorem inputs_congr {r r' : Readings} (h : ∀ y n, pin r y n = pin r' y n) :
    boardReadDigitalInputs r = boardReadDigitalInputs r' := by
  apply byte_ext
  intro i hi
  have hchan : ∃ y n, Port.channel y n = ⟨i, hi⟩ := by
    by_cases h4 : i < 4
    · exact ⟨.a, ⟨i, h4⟩, rfl⟩
    · exact ⟨.b, ⟨i - 4, by omega⟩, Fin.ext (show 4 + (i - 4) = i by omega)⟩
  obtain ⟨y, n, hyn⟩ := hchan
  have hpin := inputs_pin r y n
  have hpin' := inputs_pin r' y n
  rw [hyn] at hpin hpin'
  rw [hpin, hpin', h]

theorem exec_congr {r r' : Readings} (h : boardReadDigitalInputs r = boardReadDigitalInputs r')
    (fw : Firmware) (c : Command) : exec r fw c = exec r' fw c := by
  have hvalue : ∀ y : Port, y.value r = y.value r' := by
    intro y
    cases y <;> simp only [Port.value, h]
  cases c with
  | readInputLine y n | readInputPort y | readInputPortDecimal y => simp only [exec, hvalue]
  | readInputs => simp only [exec, h]
  | _ => rfl

theorem processCommand_congr {r r' : Readings} (htime : r.elapsedTimeUs = r'.elapsedTimeUs)
    (h : boardReadDigitalInputs r = boardReadDigitalInputs r') (buf : List UInt8) (len : Nat)
    (fw : Firmware) :
    aduProtocolProcessCommand r buf len fw = aduProtocolProcessCommand r' buf len fw := by
  rw [processCommand_exec, processCommand_exec]
  simp only [watchdogKick, boardGetElapsedTimeUs, htime]
  cases decode (cstr buf) with
  | none => rfl
  | some c => simp only [execOpt, exec_congr h]

/-! ## All views -/

section
variable (r : Readings) (buf : List UInt8) (len : Nat) (fw : Firmware)

variable {y : Port} {c : UInt8} (hc : toupper c = y.letter)
include hc

theorem readInputLine_response {n : Fin 4} (h : argsOf RP (cstr buf) = some [c, asciiDigit n]) :
    (aduProtocolProcessCommand r buf len fw).1 = true ∧
      (aduProtocolProcessCommand r buf len fw).2.response.bytes = [bitChar (pin r y n)] := by
  have hline : HandlerFn.readSinglePort.decode [c, asciiDigit n] = some (.readInputLine y n) := by
    rw [HandlerFn.decode, portArg_letter hc, Option.bind_some, (indexArg_iff (by decide)).mpr rfl]
    rfl
  rw [← value_pin, bitChar, ← numeral_bitByte]
  exact responds r buf len fw (decode_of_args (h := .readSinglePort) h hline) rfl

theorem readInputPort_response (h : argsOf RP (cstr buf) = some [c]) :
    (aduProtocolProcessCommand r buf len fw).1 = true ∧
      (aduProtocolProcessCommand r buf len fw).2.response.bytes =
        [bitChar (pin r y 3), bitChar (pin r y 2), bitChar (pin r y 1), bitChar (pin r y 0)] := by
  have hport : HandlerFn.readSinglePort.decode [c] = some (.readInputPort y) := by
    rw [HandlerFn.decode, portArg_letter hc]
    rfl
  rw [← numeral_bits]
  exact responds r buf len fw (decode_of_args (h := .readSinglePort) h hport) rfl

theorem readInputPortDecimal_response (h : argsOf PA (cstr buf) = some [c]) :
    (aduProtocolProcessCommand r buf len fw).1 = true ∧
      IsDecimal 2 (portNumber r y) (aduProtocolProcessCommand r buf len fw).2.response.bytes := by
  have hport : HandlerFn.readSinglePortDecimal.decode [c] = some (.readInputPortDecimal y) := by
    rw [HandlerFn.decode, portArg_letter hc]
    rfl
  have hlt := y.value_lt r
  obtain ⟨hsuccess, hbytes⟩ :=
    responds r buf len fw (decode_of_args (h := .readSinglePortDecimal) h hport) rfl
  rw [hbytes, ← value_portNumber]
  exact ⟨hsuccess, isDecimal_numeral (by omega)⟩

omit hc in
theorem readInputs_response (h : argsOf PI (cstr buf) = some []) :
    (aduProtocolProcessCommand r buf len fw).1 = true ∧
      IsDecimal 3 (portNumber r .a + 16 * portNumber r .b)
        (aduProtocolProcessCommand r buf len fw).2.response.bytes := by
  have hlt := (boardReadDigitalInputs r).toNat_lt
  obtain ⟨hsuccess, hbytes⟩ :=
    responds r buf len fw (decode_of_args (h := .readCombinedPortsDecimal) h rfl) rfl
  rw [hbytes, ← inputs_toNat]
  exact ⟨hsuccess, isDecimal_numeral (by omega)⟩

end

/-- **The views of the inputs agree with the pin table**, and show nothing else
of the two registers. -/
theorem inputs_agree (r : Readings) :
    (∀ buf len fw (y : Port) (n : Fin 4) c, toupper c = y.letter →
      argsOf RP (cstr buf) = some [c, asciiDigit n] →
      (aduProtocolProcessCommand r buf len fw).1 = true ∧
      (aduProtocolProcessCommand r buf len fw).2.response.bytes = [bitChar (pin r y n)]) ∧
    (∀ buf len fw (y : Port) c, toupper c = y.letter → argsOf RP (cstr buf) = some [c] →
      (aduProtocolProcessCommand r buf len fw).1 = true ∧
      (aduProtocolProcessCommand r buf len fw).2.response.bytes =
        [bitChar (pin r y 3), bitChar (pin r y 2), bitChar (pin r y 1), bitChar (pin r y 0)]) ∧
    (∀ buf len fw (y : Port) c, toupper c = y.letter → argsOf PA (cstr buf) = some [c] →
      (aduProtocolProcessCommand r buf len fw).1 = true ∧
      IsDecimal 2 (portNumber r y) (aduProtocolProcessCommand r buf len fw).2.response.bytes) ∧
    (∀ buf len fw, argsOf PI (cstr buf) = some [] →
      (aduProtocolProcessCommand r buf len fw).1 = true ∧
      IsDecimal 3 (portNumber r .a + 16 * portNumber r .b)
        (aduProtocolProcessCommand r buf len fw).2.response.bytes) ∧
    (∀ ec (y : Port) (n : Fin 4), (eventCounterTask r ec).chan (y.channel n) =
      counterStep r.elapsedTimeUs ec.debounceTimeUs (pin r y n) (ec.chan (y.channel n))) ∧
    (∀ r', r'.elapsedTimeUs = r.elapsedTimeUs → (∀ y n, pin r' y n = pin r y n) →
      (∀ buf len fw,
        aduProtocolProcessCommand r' buf len fw = aduProtocolProcessCommand r buf len fw) ∧
      (∀ ec, eventCounterTask r' ec = eventCounterTask r ec)) := by
  refine ⟨fun buf len fw y n c hc => readInputLine_response r buf len fw hc,
    fun buf len fw y c hc => readInputPort_response r buf len fw hc,
    fun buf len fw y c hc => readInputPortDecimal_response r buf len fw hc,
    fun buf len fw => readInputs_response r buf len fw, fun ec y n => ?_, fun r' htime hpin => ?_⟩
  · rw [eventCounterTask, eventCounterSample_chan, inputs_pin]
    rfl
  · have hinputs := inputs_congr hpin
    refine ⟨fun buf len fw => processCommand_congr htime hinputs buf len fw, fun ec => ?_⟩
    rw [eventCounterTask, eventCounterTask, hinputs, boardGetElapsedTimeUs, htime]
    rfl

end Relacon.L3
