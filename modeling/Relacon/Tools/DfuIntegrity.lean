import Mathlib.Data.Nat.Bitwise
import Relacon.Core.Lfsr
import Relacon.Tools.Mkdfu

/-!
# What the CRC of a DFU file protects

`CrcOk` is what a programming tool checks before it flashes a file: its last four
bytes are the CRC of everything before them. `corruption_detected`: a file that
`createDfu` wrote passes, and a file that differs from it by a burst of at most 32
bits, anywhere, does not. The burst may lie across bytes, and in the CRC itself;
bits are counted from the lowest of each byte.

The CRC register is a shift register with feedback (`Relacon.Core.Lfsr`), and a file
passes if and only if it brings the register to zero (`crcOk_iff`).
-/
namespace Relacon.Tools
open Relacon.Core

/-! ## The CRC-32 as a shift register -/

/-- `0x04c11db7`, bit reversed. -/
def CRC_POLY : BitVec 32 := 0xedb88320#32

def fileBits (s : List UInt8) : List Bool := s.flatMap fun b => Lfsr.bitsOf b.toBitVec

theorem fileBits_cons (b : UInt8) (s : List UInt8) :
    fileBits (b :: s) = Lfsr.bitsOf b.toBitVec ++ fileBits s := List.flatMap_cons

theorem fileBits_append (s t : List UInt8) : fileBits (s ++ t) = fileBits s ++ fileBits t :=
  List.flatMap_append

@[simp] theorem fileBits_length (s : List UInt8) : (fileBits s).length = 8 * s.length := by
  induction s with
  | nil => rfl
  | cons b s ih =>
    rw [fileBits_cons, List.length_append, ih, Lfsr.bitsOf_length, List.length_cons]
    omega

theorem crcShift_toBitVec (c : UInt32) : (crcShift c).toBitVec = Lfsr.shift CRC_POLY c.toBitVec := by
  have hlow : c &&& 1 = 1 ↔ c.toBitVec.getLsbD 0 = true := by
    rw [← UInt32.toBitVec_inj, UInt32.toBitVec_and]
    show c.toBitVec &&& 1#32 = 1#32 ↔ _
    rw [BitVec.and_one_eq_setWidth_ofBool_getLsbD]
    cases c.toBitVec.getLsbD 0 <;> decide
  unfold crcShift Lfsr.shift
  by_cases h : c.toBitVec.getLsbD 0 = true
  · rw [if_pos h, if_pos (hlow.mpr h)]
    rfl
  · rw [if_neg h, if_neg (mt hlow.mp h)]
    rfl

theorem crcShifts_toBitVec (n : Nat) (c : UInt32) :
    (Nat.repeat crcShift n c).toBitVec = (Lfsr.shift CRC_POLY)^[n] c.toBitVec := by
  induction n with
  | zero => rfl
  | succ n ih => rw [Nat.repeat, crcShift_toBitVec, ih, Function.iterate_succ_apply']

/-- A byte is fed bit by bit. -/
theorem crcByte_toBitVec (c : UInt32) (b : UInt8) :
    (crcByte c b).toBitVec = Lfsr.run CRC_POLY c.toBitVec (Lfsr.bitsOf b.toBitVec) := by
  have hlen : (Lfsr.bitsOf b.toBitVec).length = 8 := Lfsr.bitsOf_length _
  have hword : Lfsr.word 32 (Lfsr.bitsOf b.toBitVec) = b.toUInt32.toBitVec := by
    apply BitVec.eq_of_getLsbD_eq
    intro i hi
    show _ = (b.toBitVec.setWidth 32).getLsbD i
    rw [Lfsr.getLsbD_word, Lfsr.getD_bitsOf, BitVec.getLsbD_setWidth]
  rw [Lfsr.run_eq_word _ (by omega), hlen, hword, crcByte, crcShifts_toBitVec, UInt32.toBitVec_xor]

theorem crcRegister_toBitVec (s : List UInt8) :
    (crcRegister s).toBitVec = Lfsr.run CRC_POLY 0xffffffff#32 (fileBits s) := by
  have hfold : ∀ c : UInt32, (s.foldl crcByte c).toBitVec = Lfsr.run CRC_POLY c.toBitVec (fileBits s) := by
    induction s with
    | nil => exact fun c => rfl
    | cons b s ih =>
      intro c
      rw [List.foldl_cons, ih, crcByte_toBitVec, fileBits_cons, Lfsr.run_append]
  exact hfold 0xffffffff

/-! ## The check -/

/-- The last four bytes are the CRC of the bytes before them, uncomplemented. -/
def CrcOk (file : List UInt8) : Prop :=
  4 ≤ file.length ∧
    leValue (file.drop (file.length - 4)) = (crcRegister (file.take (file.length - 4))).toNat

theorem leValue_cons (b : UInt8) (s : List UInt8) : leValue (b :: s) = 2 ^ 8 * leValue s + b.toNat := by
  rw [leValue, List.reverse_cons, List.map_append, List.map_singleton, ofDigits_snoc, ← leValue,
    Nat.mul_comm (leValue s)]
  rfl

theorem leValue_lt (s : List UInt8) : leValue s < 2 ^ (8 * s.length) := by
  induction s with
  | nil => decide
  | cons b s ih =>
    have hb := b.toNat_lt
    rw [leValue_cons, List.length_cons, Nat.mul_succ, Nat.pow_add]
    omega

/-- The bits of a byte string are those of its little-endian value. -/
theorem fileBits_testBit (s : List UInt8) (i : Nat) :
    (fileBits s).getD i false = (leValue s).testBit i := by
  induction s generalizing i with
  | nil => simp [fileBits, leValue, ofDigits]
  | cons b s ih =>
    have hlen : (Lfsr.bitsOf b.toBitVec).length = 8 := Lfsr.bitsOf_length _
    rw [fileBits_cons, leValue_cons, Nat.testBit_two_pow_mul_add _ b.toNat_lt]
    by_cases hi : i < 8
    · rw [if_pos hi, List.getD_append _ _ _ _ (by omega), Lfsr.getD_bitsOf]
      rfl
    · rw [if_neg hi, List.getD_append_right _ _ _ _ (by omega), hlen, ih]

theorem word_fileBits (s : List UInt8) : Lfsr.word 32 (fileBits s) = BitVec.ofNat 32 (leValue s) := by
  apply BitVec.eq_of_getLsbD_eq
  intro i hi
  rw [Lfsr.getLsbD_word, fileBits_testBit, BitVec.getLsbD_ofNat]

/-- A file passes the check if and only if it brings the register to zero. -/
theorem crcOk_iff {file : List UInt8} (h : 4 ≤ file.length) : CrcOk file ↔ crcRegister file = 0 := by
  have hsplit : file = file.take (file.length - 4) ++ file.drop (file.length - 4) :=
    (List.take_append_drop _ _).symm
  have hlen : (file.drop (file.length - 4)).length = 4 := by
    rw [List.length_drop]
    omega
  have hlt := leValue_lt (file.drop (file.length - 4))
  rw [hlen] at hlt
  have hreg : crcRegister file = 0 ↔ Lfsr.word 32 (fileBits (file.drop (file.length - 4))) =
      (crcRegister (file.take (file.length - 4))).toBitVec := by
    rw [← UInt32.toBitVec_inj, crcRegister_toBitVec, hsplit, fileBits_append, Lfsr.run_append,
      ← crcRegister_toBitVec, ← hsplit]
    exact Lfsr.run_eq_zero_iff (by decide) _ (by rw [fileBits_length, hlen])
  rw [hreg, CrcOk, word_fileBits, ← BitVec.toNat_inj, BitVec.toNat_ofNat, Nat.mod_eq_of_lt hlt]
  exact and_iff_right h

/-! ## Corruption -/

/-- **A burst of up to 32 bits is detected**, wherever it hits the file. -/
theorem corruption_detected (disk : Disk) (filenameBin filenameOut : String) (image : List UInt8)
    (addr : Int) (hread : disk.files filenameBin = some image) (ha : 0 ≤ addr ∧ addr < 2 ^ 32)
    (hn : 293 + image.length < 2 ^ 32) :
    ∃ file, (createDfu addr filenameBin filenameOut).exec disk = (.ok (), disk.write filenameOut file) ∧
      CrcOk file ∧
      ∀ (file' : List UInt8) (pre a b post : List Bool), fileBits file = pre ++ (a ++ post) →
        fileBits file' = pre ++ (b ++ post) → a.length = b.length → a.length ≤ 32 → a ≠ b →
        ¬ CrcOk file' := by
  have hlen : (dfuBytes addr.toNat image).length = 309 + image.length := by
    simp only [dfuBytes, List.length_append, dfuBody_length, leBytes_length]
    omega
  have hok : CrcOk (dfuBytes addr.toNat image) := by
    refine ⟨by omega, ?_⟩
    have hcrc := (crcRegister (dfuBody addr.toNat image)).toNat_lt
    have hbody : (dfuBytes addr.toNat image).take ((dfuBytes addr.toNat image).length - 4) =
        dfuBody addr.toNat image := take_length_sub (leBytes_length 4 _).symm
    have htail : (dfuBytes addr.toNat image).drop ((dfuBytes addr.toNat image).length - 4) =
        leBytes 4 (crcRegister (dfuBody addr.toNat image)).toNat := by
      rw [hlen, show 309 + image.length - 4 = (dfuBody addr.toNat image).length by
        rw [dfuBody_length]; omega, dfuBytes, List.drop_left]
    rw [hbody, htail, leValue_leBytes (by omega)]
  refine ⟨_, createDfu_ok hread ha hn, hok, fun file' pre a b post hbits hbits' hab ha32 hne hok' => ?_⟩
  have hzero := (crcOk_iff hok.1).mp hok
  have hzero' := (crcOk_iff hok'.1).mp hok'
  have hrun := congrArg UInt32.toBitVec (hzero.trans hzero'.symm)
  rw [crcRegister_toBitVec, crcRegister_toBitVec, hbits, hbits'] at hrun
  exact Lfsr.run_burst_ne (by decide) _ pre post hab ha32 hne hrun

/-- With the second of three image bytes changed from 2 to 7, the file fails the check. -/
theorem corruption_detected_flash :
    let disk : Disk := { files := fun name => if name = "fw.bin" then some [1, 2, 3] else none,
                         opened := [] }
    let crc := leBytes 4 (crcRegister (dfuBody 0x08000000 [1, 2, 3])).toNat
    (createDfu 0x08000000 "fw.bin" "fw.dfu").exec disk =
        (.ok (), disk.write "fw.dfu" (dfuBody 0x08000000 [1, 2, 3] ++ crc)) ∧
      CrcOk (dfuBody 0x08000000 [1, 2, 3] ++ crc) ∧
      ¬ CrcOk (dfuBody 0x08000000 [1, 7, 3] ++ crc) := by
  intro disk crc
  obtain ⟨file, hexec, hok, hburst⟩ := corruption_detected disk "fw.bin" "fw.dfu" [1, 2, 3] 0x08000000
    rfl (by decide) (by decide)
  obtain rfl : file = dfuBody 0x08000000 [1, 2, 3] ++ crc := by
    have hwritten : (.ok (), disk.write "fw.dfu" file) =
        ((.ok (), disk.write "fw.dfu" (dfuBytes 0x08000000 [1, 2, 3])) : Except PyError Unit × Disk) :=
      hexec.symm.trans (createDfu_ok rfl (by decide) (by decide))
    have hfiles := congrArg (fun res : Except PyError Unit × Disk => res.2.files "fw.dfu") hwritten
    simpa [Disk.write, dfuBytes] using hfiles
  have hbits : ∀ b : UInt8, fileBits (dfuBody 0x08000000 [1, b, 3] ++ crc) =
      fileBits (fileHeader 296 ++ (targetHeader 11 ++ (elementHeader 0x08000000 3 ++ [1]))) ++
        (Lfsr.bitsOf b.toBitVec ++ fileBits (3 :: (suffixHeader ++ crc))) := by
    intro b
    have hsplit : dfuBody 0x08000000 [1, b, 3] ++ crc = (fileHeader 296 ++ (targetHeader 11 ++
        (elementHeader 0x08000000 3 ++ [1]))) ++ (b :: 3 :: (suffixHeader ++ crc)) := by
      simp [dfuBody]
    rw [hsplit, fileBits_append, fileBits_cons]
  refine ⟨hexec, hok, hburst _ _ _ _ _ (hbits 2) (hbits 7) ?_ ?_ ?_⟩
  · rw [Lfsr.bitsOf_length, Lfsr.bitsOf_length]
  · rw [Lfsr.bitsOf_length]
    decide
  · decide

end Relacon.Tools
