import Mathlib.Data.List.GetD
import Mathlib.Logic.Function.Iterate
import Mathlib.Tactic.Common

/-!
# Shift registers with feedback

A register of `w` bits is fed one bit at a time: the bit is added to the lowest bit
of the register, which is then shifted out and fed back through the polynomial `p`
(bit reversed, without its leading term). This is how a reflected CRC is computed,
for any width and any polynomial.

* `shift_injective`: nothing is lost if `p` has its top bit set.
* `run_eq_word`: feeding up to `w` bits is adding them all at once, then shifting.
* `run_burst_ne`: two bit strings that differ in a window of at most `w` bits leave
  different registers.
* `run_eq_zero_iff`: `w` more bits bring the register to zero only if they are its
  own bits.
-/
namespace Relacon.Core.Lfsr
variable {w : Nat}

def bit (w : Nat) (b : Bool) : BitVec w := (BitVec.ofBool b).setWidth w

def shift (p c : BitVec w) : BitVec w := if c.getLsbD 0 then c >>> 1 ^^^ p else c >>> 1

def feed (p c : BitVec w) (b : Bool) : BitVec w := shift p (c ^^^ bit w b)

def run (p c : BitVec w) (bits : List Bool) : BitVec w := bits.foldl (feed p) c

/-- The bits as a number, the first one the lowest. -/
def word (w : Nat) : List Bool → BitVec w
  | [] => 0#w
  | b :: bs => word w bs <<< 1 ^^^ bit w b

def bitsOf (c : BitVec w) : List Bool := List.ofFn fun i : Fin w => c.getLsbD i

/-! ## Bits -/

theorem getLsbD_bit (b : Bool) (i : Nat) :
    (bit w b).getLsbD i = (decide (i = 0) && decide (0 < w) && b) := by
  simp only [bit, BitVec.getLsbD_setWidth, BitVec.getLsbD_ofBool]
  by_cases hi : i = 0
  · subst hi
    simp
  · simp [hi]

theorem getLsbD_word (bs : List Bool) (i : Nat) :
    (word w bs).getLsbD i = (decide (i < w) && bs.getD i false) := by
  induction bs generalizing i with
  | nil => simp [word]
  | cons b bs ih =>
    simp only [word, BitVec.getLsbD_xor, BitVec.getLsbD_shiftLeft, getLsbD_bit, ih]
    cases i with
    | zero => simp
    | succ i =>
      by_cases hi : i + 1 < w
      · have hi' : i < w := by omega
        simp [hi, hi']
      · simp [hi]

@[simp] theorem bitsOf_length (c : BitVec w) : (bitsOf c).length = w := List.length_ofFn

theorem getD_bitsOf (c : BitVec w) (i : Nat) : (bitsOf c).getD i false = c.getLsbD i := by
  by_cases hi : i < w
  · rw [List.getD_eq_getElem _ _ (by simpa using hi)]
    simp only [bitsOf, List.getElem_ofFn]
  · rw [List.getD_eq_default _ _ (by simpa using hi), BitVec.getLsbD_of_ge _ _ (by omega)]

theorem word_inj {a b : List Bool} (hlen : a.length = b.length) (ha : a.length ≤ w)
    (h : word w a = word w b) : a = b := by
  apply List.ext_getElem hlen
  intro i hi hi'
  have hbit := congrArg (fun c : BitVec w => c.getLsbD i) h
  simp only [getLsbD_word, decide_eq_true (Nat.lt_of_lt_of_le hi ha), Bool.true_and] at hbit
  rwa [List.getD_eq_getElem _ _ hi, List.getD_eq_getElem _ _ hi'] at hbit

/-! ## Shifting -/

section
variable (p : BitVec w)

@[simp] theorem shift_zero : shift p 0#w = 0#w := by simp [shift]

theorem shift_xor (a b : BitVec w) : shift p (a ^^^ b) = shift p a ^^^ shift p b := by
  apply BitVec.eq_of_getLsbD_eq
  intro i hi
  simp only [shift, BitVec.getLsbD_xor]
  cases a.getLsbD 0 <;> cases b.getLsbD 0 <;>
    simp [BitVec.getLsbD_ushiftRight, Bool.xor_comm, Bool.xor_left_comm]

/-- A number with a free top bit is shifted up and down again. -/
theorem shift_shiftLeft {c : BitVec w} (h : c.msb = false) : shift p (c <<< 1) = c := by
  have hlow : (c <<< 1).getLsbD 0 = false := by simp
  rw [shift, hlow]
  apply BitVec.eq_of_getLsbD_eq
  intro i hi
  simp only [Bool.false_eq_true, if_false, BitVec.getLsbD_ushiftRight, BitVec.getLsbD_shiftLeft]
  by_cases htop : 1 + i < w
  · simp [htop]
  · have hlast : i = w - 1 := by omega
    rw [BitVec.msb_eq_getLsbD_last] at h
    subst hlast
    simp [htop, h]

variable {p}

theorem shift_eq_zero (hp : p.msb = true) {c : BitVec w} (h : shift p c = 0#w) : c = 0#w := by
  have hw : 0 < w := by
    by_contra hw
    obtain rfl : w = 0 := by omega
    simp [BitVec.msb_eq_getLsbD_last] at hp
  have htop : (c >>> 1).getLsbD (w - 1) = false := by
    rw [BitVec.getLsbD_ushiftRight]
    exact BitVec.getLsbD_of_ge _ _ (by omega)
  rw [BitVec.msb_eq_getLsbD_last] at hp
  by_cases hlow : c.getLsbD 0 = true
  · rw [shift, if_pos hlow] at h
    have hbit := congrArg (fun c : BitVec w => c.getLsbD (w - 1)) h
    simp [htop, hp] at hbit
  · rw [shift, if_neg hlow] at h
    apply BitVec.eq_of_getLsbD_eq
    intro i hi
    rw [BitVec.getLsbD_zero]
    cases i with
    | zero => simpa using hlow
    | succ i =>
      have hbit := congrArg (fun c : BitVec w => c.getLsbD i) h
      simp only [BitVec.getLsbD_ushiftRight, BitVec.getLsbD_zero] at hbit
      rwa [Nat.add_comm]

theorem shift_injective (hp : p.msb = true) : Function.Injective (shift p) := by
  intro a b h
  have hzero : shift p (a ^^^ b) = 0#w := by rw [shift_xor, h, BitVec.xor_self]
  exact BitVec.xor_eq_zero_iff.mp (shift_eq_zero hp hzero)

theorem feed_injective (hp : p.msb = true) (b : Bool) : Function.Injective fun c => feed p c b := by
  intro c d h
  exact BitVec.xor_left_inj _ |>.mp (shift_injective hp h)

end

/-! ## Runs -/

section
variable {p : BitVec w}

theorem run_append (c : BitVec w) (a b : List Bool) : run p c (a ++ b) = run p (run p c a) b :=
  List.foldl_append

theorem run_injective (hp : p.msb = true) (bits : List Bool) :
    Function.Injective fun c => run p c bits := by
  induction bits with
  | nil => exact fun _ _ h => h
  | cons b bits ih => exact fun c d h => feed_injective hp b (ih h)

theorem msb_word {bs : List Bool} (h : bs.length < w) : (word w bs).msb = false := by
  rw [BitVec.msb_eq_getLsbD_last, getLsbD_word, List.getD_eq_default _ _ (by omega), Bool.and_false]

/-- Up to `w` bits can be added all at once. -/
theorem run_eq_word (c : BitVec w) {bs : List Bool} (h : bs.length ≤ w) :
    run p c bs = (shift p)^[bs.length] (c ^^^ word w bs) := by
  induction bs generalizing c with
  | nil => simp [run, word]
  | cons b bs ih =>
    have hlen : bs.length < w := h
    have hshift : feed p c b ^^^ word w bs = shift p (c ^^^ word w (b :: bs)) := by
      rw [word, BitVec.xor_comm _ (bit w b), ← BitVec.xor_assoc, shift_xor,
        shift_shiftLeft _ (msb_word hlen), feed]
    show run p (feed p c b) bs = _
    rw [ih _ (Nat.le_of_lt hlen), hshift, List.length_cons, Function.iterate_succ_apply]

/-- **Bursts are detected**, if they are not longer than the register. -/
theorem run_burst_ne (hp : p.msb = true) (c : BitVec w) (pre post : List Bool) {a b : List Bool}
    (hlen : a.length = b.length) (ha : a.length ≤ w) (hne : a ≠ b) :
    run p c (pre ++ (a ++ post)) ≠ run p c (pre ++ (b ++ post)) := by
  intro h
  rw [run_append, run_append c, run_append, run_append _ b] at h
  have hmid : run p (run p c pre) a = run p (run p c pre) b := run_injective hp post h
  rw [run_eq_word _ ha, run_eq_word _ (hlen ▸ ha : b.length ≤ w), hlen] at hmid
  have hword := (shift_injective hp).iterate _ hmid
  exact hne (word_inj hlen ha (BitVec.xor_right_inj _ |>.mp hword))

/-- A register is brought to zero by its own bits, and by no others. -/
theorem run_eq_zero_iff (hp : p.msb = true) (c : BitVec w) {bs : List Bool} (h : bs.length = w) :
    run p c bs = 0#w ↔ word w bs = c := by
  have hiter : ∀ n, (shift p)^[n] 0#w = 0#w := Function.iterate_fixed (shift_zero p)
  rw [run_eq_word c (Nat.le_of_eq h)]
  refine ⟨fun hz => ?_, fun hw => ?_⟩
  · have hxor := (shift_injective hp).iterate _ (hz.trans (hiter bs.length).symm)
    exact (BitVec.xor_eq_zero_iff.mp hxor).symm
  · rw [hw, BitVec.xor_self]
    exact hiter _

end

end Relacon.Core.Lfsr
