import Relacon.Core.CString
import Relacon.Core.Loop
import Relacon.Core.Word

/-!
# The response buffer and its two encoders

The response to the latest command is `ResponseBuf[0..ResponseBufLen)`; only the
length is ever reset, so bytes behind it are left over from earlier commands.

* `bytes_writeResponseDecimal`, `bytes_writeResponseBinary`: either encoder
  leaves the fixed-width numeral of the value as the response.
* `encoders_exact`: so the response decodes to the value modulo `10 ^ d` or
  `2 ^ d`, and the buffer behind it is as before.
* `Response.Ok`: what every response of the firmware satisfies, at most five
  ASCII digits.
-/
namespace Relacon.L3
open Relacon.Core

abbrev MAX_RSP_BUF_SIZE : Nat := 8

def DEC_DIGITS_4_BIT : Nat := 2
def DEC_DIGITS_8_BIT : Nat := 3
def DEC_DIGITS_16_BIT : Nat := 5

/-- mirrors src/AduProtocol.c:57-61 -/
structure Response where
  responseBuf : Vector UInt8 MAX_RSP_BUF_SIZE
  responseBufLen : Nat
  deriving DecidableEq, Repr

namespace Response

/-- `ResponseBuf[0..ResponseBufLen)`. -/
def bytes (r : Response) : List UInt8 := r.responseBuf.toList.take r.responseBufLen

/-- mirrors src/AduProtocol.c:741 (`ResponseBufLen = 0`) -/
def clear (r : Response) : Response := { r with responseBufLen := 0 }

end Response

/-- mirrors src/AduProtocol.c:183-191 -/
def writeResponseBinary (value : UInt8) (numDigits : Nat) (r : Response) : Response where
  responseBuf := fillUp (fun i => if bitSet value (numDigits - i - 1) then '1'.toUInt8 else '0'.toUInt8)
    numDigits r.responseBuf
  responseBufLen := numDigits

/-- mirrors src/AduProtocol.c:206-216 -/
def writeResponseDecimal (value : UInt16) (numDigits : Nat) (r : Response) : Response where
  responseBuf := fillDown (fun v : UInt16 => '0'.toUInt8 + (v % 10).toUInt8) (· / 10)
    numDigits value r.responseBuf
  responseBufLen := numDigits

/-- Copies the response, and reports at most `len` bytes of it. `buf` is the
memory from the destination on; the `memcpy` length is `ResponseBufLen`.
mirrors src/AduProtocol.c:769-775 -/
def aduProtocolGetResponse (buf : List UInt8) (len : Nat) (r : Response) : Nat × List UInt8 :=
  let copyLen := if len < r.responseBufLen then len else r.responseBufLen
  (copyLen, memcpy buf r.responseBuf.toList r.responseBufLen)

/-! ## The encoders write numerals -/

theorem decimal_digit (v : UInt16) :
    '0'.toUInt8 + (v % 10).toUInt8 = asciiDigit (v.toNat % 10) := by
  have hlt : v.toNat % 10 < 10 := Nat.mod_lt _ (by decide)
  apply UInt8.toNat_inj.mp
  rw [asciiDigit_toNat hlt, UInt8.toNat_add, UInt16.toNat_toUInt8, UInt16.toNat_mod]
  have h0 : '0'.toUInt8.toNat = 48 := rfl
  have h10 : (10 : UInt16).toNat = 10 := rfl
  rw [h0, h10]
  omega

theorem unroll_decimal (d : Nat) (v : UInt16) :
    unroll (fun v : UInt16 => '0'.toUInt8 + (v % 10).toUInt8) (· / 10) d v = numeral 10 d v.toNat := by
  induction d generalizing v with
  | zero => rfl
  | succ d ih =>
    rw [unroll, ih, numeral_snoc, decimal_digit, UInt16.toNat_div]
    rfl

theorem map_binary (v : Nat) (d : Nat) :
    (List.range d).map (fun i => if v.testBit (d - i - 1) then '1'.toUInt8 else '0'.toUInt8) =
      numeral 2 d v := by
  induction d generalizing v with
  | zero => rfl
  | succ d ih =>
    rw [List.range_succ, List.map_append, numeral_snoc, ← ih]
    congr 1
    · apply List.map_congr_left
      intro i hi
      rw [List.mem_range] at hi
      rw [show d + 1 - i - 1 = d - i - 1 + 1 by omega, Nat.testBit_succ]
    · have hlast : d + 1 - d - 1 = 0 := by omega
      rw [List.map_singleton, hlast, Nat.testBit_zero]
      rcases Nat.mod_two_eq_zero_or_one v with h | h <;> rw [h] <;> rfl

theorem toList_writeResponseDecimal (v : UInt16) {d : Nat} (hd : d ≤ 8) (r : Response) :
    (writeResponseDecimal v d r).responseBuf.toList =
      numeral 10 d v.toNat ++ r.responseBuf.toList.drop d := by
  rw [writeResponseDecimal, toList_fillDown _ _ hd, unroll_decimal]

theorem toList_writeResponseBinary (v : UInt8) {d : Nat} (hd : d ≤ 8) (r : Response) :
    (writeResponseBinary v d r).responseBuf.toList =
      numeral 2 d v.toNat ++ r.responseBuf.toList.drop d := by
  simp only [writeResponseBinary, toList_fillUp _ hd, bitSet_eq_testBit, map_binary]

theorem bytes_of_numeral {b d v : Nat} {rest : List UInt8} {r : Response} (hlen : r.responseBufLen = d)
    (hbuf : r.responseBuf.toList = numeral b d v ++ rest) : r.bytes = numeral b d v := by
  rw [Response.bytes, hlen, hbuf]
  exact List.take_left' (numeral_length b d v)

theorem bytes_writeResponseDecimal (v : UInt16) {d : Nat} (hd : d ≤ 8) (r : Response) :
    (writeResponseDecimal v d r).bytes = numeral 10 d v.toNat :=
  bytes_of_numeral rfl (toList_writeResponseDecimal v hd r)

theorem bytes_writeResponseBinary (v : UInt8) {d : Nat} (hd : d ≤ 8) (r : Response) :
    (writeResponseBinary v d r).bytes = numeral 2 d v.toNat :=
  bytes_of_numeral rfl (toList_writeResponseBinary v hd r)

/-! ## The encoders are exact -/

/-- From `r` to `r'` the `d`-digit base-`b` numeral of `v` was written. -/
structure Encodes (b d v : Nat) (r r' : Response) : Prop where
  length : r'.responseBufLen = d
  /-- most significant first, padded with zeros -/
  digit : ∀ i < d, r'.responseBuf.toList[i]? = some (asciiDigit (v / b ^ (d - 1 - i) % b))
  digits : ∀ c ∈ r'.responseBuf.toList.take d, isdigit c = true ∧ digitVal c < b
  value : ofNumeral b (r'.responseBuf.toList.take d) = v % b ^ d
  kept : r'.responseBuf.toList.drop d = r.responseBuf.toList.drop d

/-- `write` is a positional encoding of width `d`. -/
structure ExactEncoder {α : Type} (b : Nat) (value : α → Nat)
    (write : α → Nat → Response → Response) (d : Nat) : Prop where
  encodes : ∀ v r, Encodes b d (value v) r (write v d r)
  decodes : ∀ v r, value v < b ^ d → ofNumeral b (write v d r).bytes = value v
  same : ∀ v w r r',
    (write v d r).bytes = (write w d r').bytes ↔ value v % b ^ d = value w % b ^ d

section
variable {b d : Nat} (hb : 0 < b) (h10 : b ≤ 10)
include hb h10

theorem encodes_of_numeral {v : Nat} {r r' : Response} (hlen : r'.responseBufLen = d)
    (hbuf : r'.responseBuf.toList = numeral b d v ++ r.responseBuf.toList.drop d) :
    Encodes b d v r r' := by
  have htake : r'.responseBuf.toList.take d = numeral b d v := by
    rw [← bytes_of_numeral hlen hbuf, Response.bytes, hlen]
  refine ⟨hlen, ?_, ?_, ?_, ?_⟩
  · intro i hi
    rw [← List.getElem?_take_of_lt hi, htake, numeral_getElem? hi]
  · rw [htake]
    intro c hc
    obtain ⟨x, hx, rfl⟩ := List.mem_map.mp hc
    have hlt := digits_lt hb d v x hx
    rw [digitVal_asciiDigit (by omega)]
    exact ⟨isdigit_asciiDigit (by omega), hlt⟩
  · rw [htake, ofNumeral_numeral hb h10]
  · rw [hbuf]
    exact List.drop_left' (numeral_length b d v)

theorem exactEncoder_of_numeral {α : Type} {value : α → Nat} {write : α → Nat → Response → Response}
    (hlen : ∀ v r, (write v d r).responseBufLen = d)
    (hbuf : ∀ v r, (write v d r).responseBuf.toList =
      numeral b d (value v) ++ r.responseBuf.toList.drop d) :
    ExactEncoder b value write d := by
  have hbytes : ∀ v r, (write v d r).bytes = numeral b d (value v) :=
    fun v r => bytes_of_numeral (hlen v r) (hbuf v r)
  refine ⟨fun v r => encodes_of_numeral hb h10 (hlen v r) (hbuf v r), ?_, ?_⟩
  · intro v r hlt
    rw [hbytes, ofNumeral_numeral hb h10, Nat.mod_eq_of_lt hlt]
  · intro v w r r'
    rw [hbytes, hbytes, numeral_inj_iff hb h10]

end

/-- **The numeric encoders are exact positional encodings.** -/
theorem encoders_exact {d : Nat} (hd : d ≤ MAX_RSP_BUF_SIZE) :
    ExactEncoder 10 UInt16.toNat writeResponseDecimal d ∧
      ExactEncoder 2 UInt8.toNat writeResponseBinary d := by
  refine ⟨?_, ?_⟩
  · exact exactEncoder_of_numeral (by omega) (by omega) (fun _ _ => rfl)
      fun v r => toList_writeResponseDecimal v hd r
  · exact exactEncoder_of_numeral (by omega) (by omega) (fun _ _ => rfl)
      fun v r => toList_writeResponseBinary v hd r

theorem encoders_exact_full :
    ExactEncoder 10 UInt16.toNat writeResponseDecimal 8 ∧
      ExactEncoder 2 UInt8.toNat writeResponseBinary 8 :=
  encoders_exact (by decide)

/-! ## What every response looks like -/

/-- At most five characters, all of them digits. -/
structure Response.Ok (r : Response) : Prop where
  len : r.responseBufLen ≤ 5
  digits : ∀ c ∈ r.bytes, isdigit c = true

theorem Response.ok_clear (r : Response) : r.clear.Ok :=
  ⟨by simp [Response.clear], by simp [Response.bytes, Response.clear]⟩

theorem ok_writeResponseDecimal (v : UInt16) {d : Nat} (hd : d ≤ 5) (r : Response) :
    (writeResponseDecimal v d r).Ok := by
  refine ⟨hd, ?_⟩
  rw [bytes_writeResponseDecimal v (by omega)]
  exact numeral_isdigit (by decide) (by decide) d v.toNat

theorem ok_writeResponseBinary (v : UInt8) {d : Nat} (hd : d ≤ 5) (r : Response) :
    (writeResponseBinary v d r).Ok := by
  refine ⟨hd, ?_⟩
  rw [bytes_writeResponseBinary v (by omega)]
  exact numeral_isdigit (by decide) (by decide) d v.toNat

theorem Response.Ok.bytes_length {r : Response} (h : r.Ok) : r.bytes.length = r.responseBufLen := by
  have := h.len
  simp only [Response.bytes, List.length_take, Vector.length_toList, MAX_RSP_BUF_SIZE]
  omega

theorem Response.Ok.ne_zero {r : Response} (h : r.Ok) : ∀ c ∈ r.bytes, c ≠ 0 :=
  fun c hc => isdigit_ne_zero (h.digits c hc)

/-! ## Fetching the response -/

theorem getResponse_eq {response : Response} (h : response.Ok) (buf : List UInt8) (len : Nat) :
    aduProtocolGetResponse buf len response = (min len response.bytes.length,
      response.bytes ++ buf.drop response.bytes.length) := by
  rw [h.bytes_length, aduProtocolGetResponse, memcpy, Response.bytes, Nat.min_def]
  congr 1
  split <;> split <;> omega

end Relacon.L3
