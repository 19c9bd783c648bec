import Mathlib.Algebra.Group.Nat.Defs
import Mathlib.Data.List.Induction
import Mathlib.Tactic.Common

/-!
# Fixed-width positional numerals

`digits b d v` is the `d`-digit base-`b` numeral of `v`, most significant digit
first and zero padded; `ofDigits` evaluates a digit list. `numeral` and
`ofNumeral` are the same over ASCII characters.

* `ofDigits_digits`: the value of the numeral is `v % b ^ d`.
* `digits_inj_iff`: two values share a numeral exactly when they are equal modulo
  `b ^ d`.
-/
namespace Relacon.Core

def digits (b : Nat) : Nat → Nat → List Nat
  | 0, _ => []
  | d + 1, v => digits b d (v / b) ++ [v % b]

def ofDigits (b : Nat) (ds : List Nat) : Nat := ds.foldl (fun a d => a * b + d) 0

@[simp] theorem digits_length (b d v : Nat) : (digits b d v).length = d := by
  induction d generalizing v with
  | zero => rfl
  | succ d ih => simp [digits, ih]

theorem digits_lt {b : Nat} (hb : 0 < b) (d v : Nat) : ∀ x ∈ digits b d v, x < b := by
  induction d generalizing v with
  | zero => simp [digits]
  | succ d ih =>
    intro x hx
    simp only [digits, List.mem_append, List.mem_singleton] at hx
    rcases hx with hx | rfl
    · exact ih (v / b) x hx
    · exact Nat.mod_lt v hb

theorem ofDigits_snoc (b : Nat) (ds : List Nat) (x : Nat) :
    ofDigits b (ds ++ [x]) = ofDigits b ds * b + x := by
  simp [ofDigits]

theorem ofDigits_digits (b d v : Nat) : ofDigits b (digits b d v) = v % b ^ d := by
  induction d generalizing v with
  | zero => simp [digits, ofDigits, Nat.mod_one]
  | succ d ih =>
    rw [digits, ofDigits_snoc, ih, Nat.pow_succ, Nat.mul_comm (b ^ d) b, Nat.mod_mul,
      Nat.mul_comm b, Nat.add_comm]

theorem digits_mod (b d v : Nat) : digits b d (v % b ^ d) = digits b d v := by
  induction d generalizing v with
  | zero => rfl
  | succ d ih =>
    have hdvd : b ∣ b ^ (d + 1) := ⟨b ^ d, by rw [Nat.pow_succ, Nat.mul_comm]⟩
    have hdiv : v % b ^ (d + 1) / b = v / b % b ^ d := by
      rw [Nat.pow_succ, Nat.mul_comm, Nat.mod_mul_right_div_self]
    rw [digits, digits, Nat.mod_mod_of_dvd v hdvd, hdiv, ih]

theorem digits_inj_iff (b d v w : Nat) :
    digits b d v = digits b d w ↔ v % b ^ d = w % b ^ d := by
  refine ⟨fun h => ?_, fun h => ?_⟩
  · rw [← ofDigits_digits, ← ofDigits_digits b d w, h]
  · rw [← digits_mod b d v, ← digits_mod b d w, h]

/-- The digit at place `i` from the left, of weight `b ^ (d - 1 - i)`. -/
theorem digits_getElem? {b d i : Nat} (h : i < d) (v : Nat) :
    (digits b d v)[i]? = some (v / b ^ (d - 1 - i) % b) := by
  induction d generalizing v with
  | zero => exact absurd h (Nat.not_lt_zero i)
  | succ d ih =>
    rw [digits]
    by_cases hi : i < d
    · have hweight : d + 1 - 1 - i = d - 1 - i + 1 := by omega
      rw [List.getElem?_append_left (by simpa using hi), ih hi, Nat.div_div_eq_div_mul, hweight,
        Nat.pow_succ, Nat.mul_comm b]
    · have hlast : i = d := by omega
      subst hlast
      rw [List.getElem?_append_right (by simp)]
      simp

theorem ofDigits_lt {b : Nat} (ds : List Nat) (h : ∀ x ∈ ds, x < b) : ofDigits b ds < b ^ ds.length := by
  induction ds using List.reverseRecOn with
  | nil => simp [ofDigits]
  | append_singleton ds x ih =>
    have hlt := ih fun y hy => h y (by simp [hy])
    have hx := h x (by simp)
    have hmul : (ofDigits b ds + 1) * b ≤ b ^ ds.length * b := Nat.mul_le_mul_right b hlt
    rw [ofDigits_snoc, List.length_append, List.length_singleton, Nat.pow_succ]
    rw [Nat.succ_mul] at hmul
    omega

/-! ## ASCII numerals -/

def isdigit (c : UInt8) : Bool := 48 ≤ c && c ≤ 57

def asciiDigit (d : Nat) : UInt8 := UInt8.ofNat (48 + d)

def digitVal (c : UInt8) : Nat := c.toNat - 48

def numeral (b d v : Nat) : List UInt8 := (digits b d v).map asciiDigit

def ofNumeral (b : Nat) (s : List UInt8) : Nat := ofDigits b (s.map digitVal)

theorem isdigit_iff (c : UInt8) : isdigit c = true ↔ 48 ≤ c.toNat ∧ c.toNat ≤ 57 := by
  simp [isdigit, UInt8.le_iff_toNat_le]

theorem isdigit_ne_zero {c : UInt8} (h : isdigit c = true) : c ≠ 0 := by
  rintro rfl
  cases h

theorem asciiDigit_toNat {d : Nat} (h : d < 10) : (asciiDigit d).toNat = 48 + d := by
  rw [asciiDigit, UInt8.toNat_ofNat']
  omega

theorem isdigit_asciiDigit {d : Nat} (h : d < 10) : isdigit (asciiDigit d) = true := by
  rw [isdigit_iff, asciiDigit_toNat h]
  omega

theorem digitVal_asciiDigit {d : Nat} (h : d < 10) : digitVal (asciiDigit d) = d := by
  rw [digitVal, asciiDigit_toNat h]
  omega

theorem digitVal_lt {c : UInt8} (h : isdigit c = true) : digitVal c < 10 := by
  have := (isdigit_iff c).mp h
  rw [digitVal]
  omega

theorem asciiDigit_digitVal {c : UInt8} (h : isdigit c = true) : asciiDigit (digitVal c) = c := by
  have := (isdigit_iff c).mp h
  apply UInt8.toNat_inj.mp
  rw [asciiDigit_toNat (digitVal_lt h), digitVal]
  omega

theorem asciiDigit_inj {x y : Nat} (hx : x < 10) (hy : y < 10) (h : asciiDigit x = asciiDigit y) :
    x = y := by
  rw [← digitVal_asciiDigit hx, h, digitVal_asciiDigit hy]

@[simp] theorem numeral_length (b d v : Nat) : (numeral b d v).length = d := by
  simp [numeral]

theorem numeral_snoc (b d v : Nat) :
    numeral b (d + 1) v = numeral b d (v / b) ++ [asciiDigit (v % b)] := by
  simp [numeral, digits]

theorem numeral_isdigit {b : Nat} (hb : 0 < b) (h10 : b ≤ 10) (d v : Nat) :
    ∀ c ∈ numeral b d v, isdigit c = true := by
  intro c hc
  obtain ⟨x, hx, rfl⟩ := List.mem_map.mp hc
  have := digits_lt hb d v x hx
  exact isdigit_asciiDigit (by omega)

theorem ofNumeral_numeral {b : Nat} (hb : 0 < b) (h10 : b ≤ 10) (d v : Nat) :
    ofNumeral b (numeral b d v) = v % b ^ d := by
  have hmap : (digits b d v).map (digitVal ∘ asciiDigit) = digits b d v := by
    rw [List.map_congr_left (g := id), List.map_id]
    intro x hx
    have := digits_lt hb d v x hx
    exact digitVal_asciiDigit (by omega)
  rw [ofNumeral, numeral, List.map_map, hmap, ofDigits_digits]

theorem numeral_getElem? {b d i : Nat} (h : i < d) (v : Nat) :
    (numeral b d v)[i]? = some (asciiDigit (v / b ^ (d - 1 - i) % b)) := by
  rw [numeral, List.getElem?_map, digits_getElem? h, Option.map_some]

/-- Numerals of one width differ exactly when the values do, modulo `b ^ d`. -/
theorem numeral_inj_iff {b : Nat} (hb : 0 < b) (h10 : b ≤ 10) (d v w : Nat) :
    numeral b d v = numeral b d w ↔ v % b ^ d = w % b ^ d := by
  refine ⟨fun h => ?_, fun h => ?_⟩
  · rw [← ofNumeral_numeral hb h10, h, ofNumeral_numeral hb h10]
  · rw [numeral, (digits_inj_iff b d v w).mpr h, numeral]

theorem ofNumeral_lt {s : List UInt8} (h : ∀ c ∈ s, isdigit c = true) :
    ofNumeral 10 s < 10 ^ s.length := by
  have := ofDigits_lt (b := 10) (s.map digitVal) (by
    intro x hx
    obtain ⟨c, hc, rfl⟩ := List.mem_map.mp hx
    exact digitVal_lt (h c hc))
  simpa [ofNumeral] using this

/-- `s` is `d` decimal digits of value `v`. -/
structure IsDecimal (d v : Nat) (s : List UInt8) : Prop where
  length : s.length = d
  digits : ∀ c ∈ s, isdigit c = true
  value : ofNumeral 10 s = v

theorem isDecimal_numeral {d v : Nat} (h : v < 10 ^ d) : IsDecimal d v (numeral 10 d v) where
  length := numeral_length 10 d v
  digits := numeral_isdigit (by decide) (by decide) d v
  value := by rw [ofNumeral_numeral (by decide) (by decide), Nat.mod_eq_of_lt h]

end Relacon.Core
