import Mathlib.Data.Nat.Bitwise
import Mathlib.Tactic.Common

/-!
# Machine words: a wrapping timer and the bits of a byte

`reading t` is what a free-running 32-bit timer shows at true time `t`. The
difference of two readings is the true elapsed time modulo `2 ^ 32`
(`elapsed_mod`), so an "elapsed more than `p`" test on readings is never early
(`lt_of_elapsed`) and is exact below `2 ^ 32` (`elapsed_iff`).

`bitSet v i` is the C test `(v & (1 << i)) != 0` on a byte promoted to `int`;
`setBit` and `clearBit` are the corresponding read-modify-write values.
-/
namespace Relacon.Core

/-! ## Timer readings -/

def reading (t : Nat) : UInt32 := UInt32.ofNat t

@[simp] theorem reading_toNat (t : Nat) : (reading t).toNat = t % 2 ^ 32 := UInt32.toNat_ofNat'

theorem elapsed_mod {a b : Nat} (h : a ≤ b) : (reading b - reading a).toNat = (b - a) % 2 ^ 32 := by
  rw [UInt32.toNat_sub, reading_toNat, reading_toNat]
  omega

/-- Never early: what the timer shows as elapsed has really elapsed. -/
theorem lt_of_elapsed {a b : Nat} {p : UInt32} (h : a ≤ b) (he : reading b - reading a > p) :
    p.toNat < b - a := by
  rw [gt_iff_lt, UInt32.lt_iff_toNat_lt, elapsed_mod h] at he
  have := Nat.mod_le (b - a) (2 ^ 32)
  omega

/-- Exact across rollover, as long as less than a full turn has elapsed. -/
theorem elapsed_iff {a b : Nat} {p : UInt32} (h : a ≤ b) (hlt : b - a < 2 ^ 32) :
    reading b - reading a > p ↔ p.toNat < b - a := by
  rw [gt_iff_lt, UInt32.lt_iff_toNat_lt, elapsed_mod h, Nat.mod_eq_of_lt hlt]

/-! ## Bits of a byte -/

def bitSet (v : UInt8) (i : Nat) : Bool := (v.toNat &&& (1 <<< i)) != 0

def setBit (v : UInt8) (i : Nat) : UInt8 := v ||| UInt8.ofNat (1 <<< i)

def clearBit (v : UInt8) (i : Nat) : UInt8 := v &&& ~~~UInt8.ofNat (1 <<< i)

theorem bitSet_eq_testBit (v : UInt8) (i : Nat) : bitSet v i = v.toNat.testBit i := by
  rw [bitSet, Nat.one_shiftLeft, Nat.and_two_pow]
  cases v.toNat.testBit i <;> simp

theorem bitSet_setBit (v : UInt8) {i j : Nat} (hi : i < 8) :
    bitSet (setBit v i) j = (decide (j = i) || bitSet v j) := by
  have hpow : (2 ^ i) % 2 ^ 8 = 2 ^ i := Nat.mod_eq_of_lt (Nat.pow_lt_pow_right (by decide) hi)
  rw [bitSet_eq_testBit, bitSet_eq_testBit, setBit, UInt8.toNat_or, UInt8.toNat_ofNat',
    Nat.one_shiftLeft, hpow, Nat.testBit_or, Nat.testBit_two_pow, Bool.or_comm]
  simp [eq_comm]

theorem bitSet_clearBit (v : UInt8) {i j : Nat} (hi : i < 8) (hj : j < 8) :
    bitSet (clearBit v i) j = (decide (j ≠ i) && bitSet v j) := by
  have hnot : ∀ i j : Fin 8, (~~~UInt8.ofNat (1 <<< i.val)).toNat.testBit j.val = decide (j.val ≠ i.val) := by
    decide +kernel
  have := hnot ⟨i, hi⟩ ⟨j, hj⟩
  rw [bitSet_eq_testBit, bitSet_eq_testBit, clearBit, UInt8.toNat_and, Nat.testBit_and, this,
    Bool.and_comm]

theorem bitSet_zero (i : Nat) : bitSet 0 i = false := by
  simp [bitSet_eq_testBit]

theorem byte_ext {v w : UInt8} (h : ∀ i < 8, bitSet v i = bitSet w i) : v = w := by
  apply UInt8.toNat_inj.mp
  apply Nat.eq_of_testBit_eq
  intro i
  by_cases hi : i < 8
  · rw [← bitSet_eq_testBit, ← bitSet_eq_testBit, h i hi]
  · have hpow : 2 ^ 8 ≤ 2 ^ i := Nat.pow_le_pow_right (by decide) (by omega)
    rw [Nat.testBit_lt_two_pow (by have := v.toNat_lt; omega),
      Nat.testBit_lt_two_pow (by have := w.toNat_lt; omega)]

end Relacon.Core
