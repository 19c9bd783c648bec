import Mathlib.Algebra.Group.Int.Defs
import Relacon.Core.Digits

/-!
# Packed binary data

* `leBytes` / `leValue`: unsigned little-endian numbers of a fixed width.
* `pack`: values into a layout without padding, a list of byte strings of fixed
  size and unsigned numbers; out-of-range numbers do not fit.
* `Reader`: sequential reading from a byte string. `Reads p s a` says that `p`
  consumes exactly `s` and returns `a`, whatever follows; the rules for it follow
  the structure of a reader (`Reads.bind`, `Reads.many`).
* `crcRegister`, `crc32`: the reflected CRC-32 before and after its final
  complement.
-/
namespace Relacon.Core

/-! ## Little-endian numbers -/

def leBytes (w v : Nat) : List UInt8 := (digits 256 w v).reverse.map UInt8.ofNat

def leValue (s : List UInt8) : Nat := ofDigits 256 (s.reverse.map UInt8.toNat)

@[simp] theorem leBytes_length (w v : Nat) : (leBytes w v).length = w := by
  simp [leBytes]

theorem leValue_leBytes {w v : Nat} (h : v < 256 ^ w) : leValue (leBytes w v) = v := by
  have hback : (digits 256 w v).map (UInt8.toNat ∘ UInt8.ofNat) = digits 256 w v := by
    rw [List.map_congr_left (g := id) ?_, List.map_id]
    intro x hx
    have := digits_lt (by decide) w v x hx
    rw [Function.comp_apply, UInt8.toNat_ofNat', id]
    omega
  rw [leValue, leBytes, ← List.map_reverse, List.reverse_reverse, List.map_map, hback,
    ofDigits_digits, Nat.mod_eq_of_lt h]

/-! ## Packing -/

inductive Field where
  | bytes (n : Nat)
  | uint (w : Nat)
  deriving DecidableEq, Repr

inductive Value where
  | bytes (s : List UInt8)
  | int (v : Int)
  deriving DecidableEq, Repr

def Field.size : Field → Nat
  | .bytes n => n
  | .uint w => w

def layoutSize (fs : List Field) : Nat := fs.foldr (fun f n => f.size + n) 0

/-- A byte string is cut or padded with zeros to the size of its field. -/
def Field.pack : Field → Value → Option (List UInt8)
  | .bytes n, .bytes s => some (s.take n ++ List.replicate (n - s.length) 0)
  | .uint w, .int v => if 0 ≤ v ∧ v < 256 ^ w then some (leBytes w v.toNat) else none
  | _, _ => none

def pack : List Field → List Value → Option (List UInt8)
  | [], [] => some []
  | f :: fs, v :: vs => (f.pack v).bind fun s => (pack fs vs).map (s ++ ·)
  | _, _ => none

theorem Field.pack_bytes {n : Nat} {s : List UInt8} (h : s.length = n) :
    (Field.bytes n).pack (.bytes s) = some s := by
  subst h
  rw [Field.pack, List.take_length, Nat.sub_self, List.replicate_zero, List.append_nil]

theorem Field.pack_uint {w n : Nat} {v : Int} (hv : v = n) (h : n < 256 ^ w) :
    (Field.uint w).pack (.int v) = some (leBytes w n) := by
  have hlt : (n : Int) < (256 ^ w : Nat) := Int.ofNat_lt.mpr h
  rw [Int.natCast_pow] at hlt
  subst hv
  rw [Field.pack, if_pos ⟨Int.natCast_nonneg n, hlt⟩, Int.toNat_natCast]

/-- What does not fit raises. -/
theorem Field.pack_uint_none {w : Nat} {v : Int} (h : ¬ (0 ≤ v ∧ v < 256 ^ w)) :
    (Field.uint w).pack (.int v) = none := if_neg h

section
variable {f : Field} {fs : List Field} {v : Value} {vs : List Value} {s : List UInt8}

theorem pack_cons (h : f.pack v = some s) : pack (f :: fs) (v :: vs) = (pack fs vs).map (s ++ ·) := by
  rw [pack, h]
  rfl

theorem pack_cons_none (h : f.pack v = none) : pack (f :: fs) (v :: vs) = none := by
  rw [pack, h]
  rfl

theorem pack_last (h : f.pack v = some s) : pack [f] [v] = some s := by
  rw [pack_cons h]
  simp [pack]

end

/-! ## Reading -/

abbrev Reader (α : Type) := StateT (List UInt8) Option α

def readBytes (n : Nat) : Reader (List UInt8) := fun s =>
  if n ≤ s.length then some (s.take n, s.drop n) else none

def readUInt (w : Nat) : Reader Nat := leValue <$> readBytes w

def readMany {α : Type} (p : Reader α) : Nat → Reader (List α)
  | 0 => pure []
  | n + 1 => do
    let x ← p
    let xs ← readMany p n
    pure (x :: xs)

/-- Read all of `s`. -/
def readAll {α : Type} (p : Reader α) (s : List UInt8) : Option α :=
  match p.run s with
  | some (a, []) => some a
  | _ => none

def Reads {α : Type} (p : Reader α) (s : List UInt8) (a : α) : Prop :=
  ∀ rest, p.run (s ++ rest) = some (a, rest)

section
variable {α β : Type} {p : Reader α} {s t : List UInt8} {a : α}

theorem Reads.pure (a : α) : Reads (Pure.pure a) [] a := fun _ => rfl

theorem Reads.bind {f : α → Reader β} {b : β} (hp : Reads p s a) (hf : Reads (f a) t b) :
    Reads (p >>= f) (s ++ t) b := by
  intro rest
  rw [StateT.run_bind, List.append_assoc, hp (t ++ rest)]
  exact hf rest

theorem Reads.bytes (s : List UInt8) : Reads (readBytes s.length) s s := by
  intro rest
  show (if s.length ≤ (s ++ rest).length then _ else _) = _
  rw [if_pos (by simp), List.take_left, List.drop_left]

theorem Reads.uint {w v : Nat} (h : v < 256 ^ w) : Reads (readUInt w) (leBytes w v) v := by
  intro rest
  have hbytes := Reads.bytes (leBytes w v) rest
  rw [leBytes_length] at hbytes
  rw [readUInt, StateT.run_map, hbytes]
  simp [leValue_leBytes h]

theorem Reads.many (enc : α → List UInt8) (xs : List α) (h : ∀ x ∈ xs, Reads p (enc x) x) :
    Reads (readMany p xs.length) (xs.flatMap enc) xs := by
  induction xs with
  | nil => exact Reads.pure []
  | cons x xs ih =>
    have hxs := ih fun y hy => h y (List.mem_cons_of_mem x hy)
    have hlast := hxs.bind (f := fun ys => Pure.pure (x :: ys)) (Reads.pure (x :: xs))
    rw [List.append_nil] at hlast
    exact (h x List.mem_cons_self).bind hlast

theorem Reads.all (h : Reads p s a) : readAll p s = some a := by
  have hrun := h []
  rw [List.append_nil] at hrun
  rw [readAll, hrun]

end

/-! ## CRC-32 -/

/-- One bit of the reflected CRC with polynomial `0x04c11db7`. -/
def crcShift (c : UInt32) : UInt32 :=
  if c &&& 1 = 1 then (c >>> 1) ^^^ 0xedb88320 else c >>> 1

def crcByte (c : UInt32) (b : UInt8) : UInt32 := Nat.repeat crcShift 8 (c ^^^ b.toUInt32)

/-- The CRC register after the bytes of `s`, not complemented. -/
def crcRegister (s : List UInt8) : UInt32 := s.foldl crcByte 0xffffffff

def crc32 (s : List UInt8) : UInt32 := crcRegister s ^^^ 0xffffffff

theorem crc32_uncomplemented (s : List UInt8) : crc32 s ^^^ 0xffffffff = crcRegister s := by
  rw [crc32, UInt32.xor_assoc, UInt32.xor_self, UInt32.xor_zero]

/-- The check value of the CRC-32, for the digits 1 to 9. -/
example : crc32 [0x31, 0x32, 0x33, 0x34, 0x35, 0x36, 0x37, 0x38, 0x39] = 0xcbf43926 := by
  decide +kernel

end Relacon.Core
