import Relacon.Core.Word

/-!
# The board: timer, relay outputs and digital inputs

`Readings` is what the hardware shows to one call into the firmware: the
free-running microsecond timer and the input registers of the two MCU ports.
The only board state the firmware writes is the 16-bit output register of the
relay port (`GPIOA`).
-/
namespace Relacon.L1
open Relacon.Core

structure Readings where
  elapsedTimeUs : UInt32
  gpioA : UInt32
  gpioB : UInt32
  deriving DecidableEq, Repr

def GPIO_PIN (n : Nat) : UInt32 := UInt32.ofNat (1 <<< n)

/-- mirrors src/boards/Relacon_rev1/Board.c:59-62 -/
def PIN_RELAY_ALL : UInt32 :=
  GPIO_PIN 0 ||| GPIO_PIN 1 ||| GPIO_PIN 2 ||| GPIO_PIN 3 ||| GPIO_PIN 4 ||| GPIO_PIN 5 |||
    GPIO_PIN 6 ||| GPIO_PIN 7

/-- mirrors src/boards/Relacon_rev1/Board.c:74-77 (`PORTB2` does not exist) -/
def PIN_INPUT_BANK1_ALL : UInt32 :=
  GPIO_PIN 0 ||| GPIO_PIN 1 ||| 0 ||| GPIO_PIN 3 ||| GPIO_PIN 4 ||| GPIO_PIN 5 ||| GPIO_PIN 6 |||
    GPIO_PIN 7

/-- mirrors src/boards/Relacon_rev1/Board.c:79 -/
def PIN_INPUT_BANK2_ALL : UInt32 := GPIO_PIN 8

/-- mirrors src/boards/Relacon_rev1/Board.c:264-267 -/
def boardGetElapsedTimeUs (r : Readings) : UInt32 := r.elapsedTimeUs

/-- The new output register.
mirrors src/boards/Relacon_rev1/Board.c:269-272 -/
def boardWriteRelays (relayState : UInt8) : UInt16 := relayState.toUInt16

/-- mirrors src/boards/Relacon_rev1/Board.c:274-277 -/
def boardReadRelays (odr : UInt16) : UInt8 := (odr.toUInt32 &&& PIN_RELAY_ALL).toUInt8

/-- The `PORTA8` bit is shifted into the gap left by `PORTB2`.
mirrors src/boards/Relacon_rev1/Board.c:279-289 -/
def boardReadDigitalInputs (r : Readings) : UInt8 :=
  let pinsInputBank1 := r.gpioB &&& PIN_INPUT_BANK1_ALL
  let pinsInputBank2 := r.gpioA &&& PIN_INPUT_BANK2_ALL
  (pinsInputBank1 ||| (pinsInputBank2 >>> 6)).toUInt8

@[simp] theorem boardReadRelays_write (v : UInt8) : boardReadRelays (boardWriteRelays v) = v := by
  have hmask : PIN_RELAY_ALL.toNat = 2 ^ 8 - 1 := by decide
  have := v.toNat_lt
  apply UInt8.toNat_inj.mp
  simp only [boardReadRelays, boardWriteRelays, UInt32.toNat_toUInt8, UInt32.toNat_and,
    UInt16.toNat_toUInt32, UInt8.toNat_toUInt16, hmask, Nat.and_two_pow_sub_one_eq_mod]
  omega

@[simp] theorem boardReadRelays_zero : boardReadRelays 0 = 0 := rfl

end Relacon.L1
