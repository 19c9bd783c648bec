import Relacon.Core.CString
import Relacon.Core.Loop
import Relacon.Core.Machine
import Relacon.Core.Packed

/-!
# String descriptors

`tud_descriptor_string_cb` expands the requested string to 16-bit words in one
static buffer, behind a header word, and returns a pointer to that buffer; what
an earlier request left there stays wherever it is not overwritten. Bytes are
in memory order, low byte first, and `char` is unsigned.

* `toList_descriptorStringCb`: the buffer after a request that is answered.
* `descriptorString_decodes`: whatever was requested before, the first `bLength`
  bytes are the descriptor of the requested string, cut to 31 characters.
* `readString_descriptor`: a host that reads them gets these characters.
-/
namespace Relacon.L5
open Relacon.Core

/-- String descriptor type, of `tusb_desc_type_t` in TinyUSB. -/
def TUSB_DESC_STRING : UInt8 := 0x03

/-- mirrors src/UsbDescriptors.c:37 -/
def LANGID_ENGLISH : UInt16 := 0x0409

def u16ToU8sLe (w : UInt16) : List UInt8 := leBytes 2 w.toNat

/-- The strings of the table, each the memory from its first character on. -/
structure StringTable where
  manufacturer : List UInt8
  product : List UInt8
  serialNum : List UInt8
  config1 : List UInt8
  interface0 : List UInt8
  deriving DecidableEq, Repr

abbrev NUM_STRING_DESCRIPTORS : Nat := 6

/-- mirrors src/UsbDescriptors.c:219-227 -/
def STRING_DESCRIPTORS (t : StringTable) : Vector (List UInt8) NUM_STRING_DESCRIPTORS :=
  #v[u16ToU8sLe LANGID_ENGLISH, t.manufacturer, t.product, t.serialNum, t.config1, t.interface0]

/-- mirrors src/UsbDescriptors.c:233 -/
abbrev SCRATCH_BUFFER_WORDS : Nat := 32

abbrev ScratchBuffer : Type := Vector UInt16 SCRATCH_BUFFER_WORDS

/-- The characters of a string that fit behind the header. `unsigned` holds the
length of every string.
mirrors src/UsbDescriptors.c:273-275 -/
def numCharsOf (str : List UInt8) : Nat :=
  if strlen str > SCRATCH_BUFFER_WORDS - 1 then SCRATCH_BUFFER_WORDS - 1 else strlen str

theorem numCharsOf_eq (str : List UInt8) : numCharsOf str = min (strlen str) 31 := by
  have hwords : SCRATCH_BUFFER_WORDS = 32 := rfl
  unfold numCharsOf
  split <;> omega

theorem numCharsOf_fits (str : List UInt8) : 1 + numCharsOf str ≤ SCRATCH_BUFFER_WORDS := by
  have hwords : SCRATCH_BUFFER_WORDS = 32 := rfl
  rw [numCharsOf_eq]
  omega

/-- mirrors src/UsbDescriptors.c:265 -/
def copyLangid (langids : List UInt8) (buf : ScratchBuffer) : ScratchBuffer :=
  buf.set 1 (UInt16.ofNat (leValue (langids.take 2)))

/-- mirrors src/UsbDescriptors.c:278-281 -/
def copyString (str : List UInt8) (buf : ScratchBuffer) : ScratchBuffer :=
  fillAt 1 (fun i => (deref (str.drop i)).toUInt16) (numCharsOf str) (numCharsOf_fits str) buf

/-- `none` is NULL, and leaves the scratch buffer alone; otherwise the pointer to
it is returned, and these are its words.
mirrors src/UsbDescriptors.c:249-291 -/
def tudDescriptorStringCb (t : StringTable) (index : UInt8) (langid : UInt16)
    (buf : ScratchBuffer) : Option ScratchBuffer :=
  if h : index.toNat ≥ NUM_STRING_DESCRIPTORS then none
  else if index ≠ 0 ∧ langid ≠ LANGID_ENGLISH then none
  else
    let bDescriptorType := TUSB_DESC_STRING
    let bLength : UInt8 := 2
    let (bLength, buf) :=
      if index = 0 then (bLength + 2, copyLangid (STRING_DESCRIPTORS t)[0] buf)
      else
        let str := (STRING_DESCRIPTORS t)[index.toNat]
        (bLength + UInt8.ofNat (2 * numCharsOf str), copyString str buf)
    some (buf.set 0 (bDescriptorType.toUInt16 <<< 8 ||| bLength.toUInt16 <<< 0))

structure StringRequest where
  index : UInt8
  langid : UInt16
  deriving DecidableEq, Repr

/-- The scratch buffer over a sequence of requests. -/
def scratch (t : StringTable) : Machine ScratchBuffer StringRequest :=
  ⟨Vector.replicate _ 0, fun buf rq => (tudDescriptorStringCb t rq.index rq.langid buf).getD buf⟩

/-! ## What a descriptor is -/

def utf16 (str : List UInt8) : List UInt16 := (cstr str).map UInt8.toUInt16

/-- What is to be found under an index: the supported languages, or a string. -/
def configured (t : StringTable) : Nat → List UInt16
  | 0 => [LANGID_ENGLISH]
  | 1 => utf16 t.manufacturer
  | 2 => utf16 t.product
  | 3 => utf16 t.serialNum
  | 4 => utf16 t.config1
  | 5 => utf16 t.interface0
  | _ => []

/-- The scratch buffer starts with the descriptor of `chars`. -/
structure Describes (buf : ScratchBuffer) (chars : List UInt16) : Prop where
  fits : 1 + chars.length ≤ SCRATCH_BUFFER_WORDS
  bLength : buf[0].toNat % 256 = 2 + 2 * chars.length
  bDescriptorType : buf[0].toNat / 256 = TUSB_DESC_STRING.toNat
  words : (buf.toList.drop 1).take chars.length = chars
  bytes : (buf.toList.flatMap u16ToU8sLe).take (2 + 2 * chars.length) =
    UInt8.ofNat (2 + 2 * chars.length) :: TUSB_DESC_STRING :: chars.flatMap u16ToU8sLe

/-! ## The buffer after a request -/

theorem header_toNat (bLength : UInt8) :
    (TUSB_DESC_STRING.toUInt16 <<< 8 ||| bLength.toUInt16 <<< 0).toNat = 768 + bLength.toNat := by
  have hlt := bLength.toNat_lt
  have hlow : (bLength.toUInt16 <<< 0).toNat = bLength.toNat := by
    rw [UInt16.toNat_shiftLeft, UInt8.toNat_toUInt16]
    simp
  have hhigh : (TUSB_DESC_STRING.toUInt16 <<< 8).toNat = 2 ^ 8 * 3 := rfl
  rw [UInt16.toNat_or, hlow, hhigh, ← Nat.two_pow_add_eq_or_of_lt (by omega)]

theorem toList_set_header {buf buf' : ScratchBuffer} {chars : List UInt16}
    (h : buf'.toList = buf.toList.take 1 ++ chars ++ buf.toList.drop (1 + chars.length)) (w : UInt16) :
    (buf'.set 0 w).toList = w :: chars ++ buf.toList.drop (1 + chars.length) := by
  have hlen : buf.toList.length = 32 := by simp
  obtain ⟨x, l, hl⟩ := List.exists_cons_of_length_pos (show 0 < buf.toList.length by omega)
  rw [Vector.toList_set, h, hl]
  rfl

theorem configured_string (t : StringTable) {i : Nat} (h : i < NUM_STRING_DESCRIPTORS) (hi : i ≠ 0) :
    configured t i = utf16 (STRING_DESCRIPTORS t)[i] := by
  match i, h with
  | 1, _ | 2, _ | 3, _ | 4, _ | 5, _ => rfl

theorem utf16_cut (str : List UInt8) :
    (utf16 str).take 31 = ((cstr str).take (numCharsOf str)).map UInt8.toUInt16 := by
  rw [utf16, ← List.map_take, numCharsOf_eq, strlen, Nat.min_comm, List.take_eq_take_min]

theorem utf16_cut_length (str : List UInt8) : ((utf16 str).take 31).length = numCharsOf str := by
  rw [numCharsOf_eq, List.length_take, utf16, List.length_map, strlen, Nat.min_comm]

theorem toList_copyString (str : List UInt8) (buf : ScratchBuffer) :
    (copyString str buf).toList = buf.toList.take 1 ++ (utf16 str).take 31 ++
      buf.toList.drop (1 + ((utf16 str).take 31).length) := by
  have hle : numCharsOf str ≤ (cstr str).length := by
    rw [numCharsOf_eq, strlen]
    omega
  rw [copyString, toList_fillAt, utf16_cut_length, utf16_cut, ← map_deref_drop hle, List.map_map]
  rfl

theorem toList_copyLangid (t : StringTable) (buf : ScratchBuffer) :
    (copyLangid (STRING_DESCRIPTORS t)[0] buf).toList =
      buf.toList.take 1 ++ [LANGID_ENGLISH] ++ buf.toList.drop 2 := by
  have hlen : buf.toList.length = 32 := by simp
  have hword : UInt16.ofNat (leValue ((STRING_DESCRIPTORS t)[0].take 2)) = LANGID_ENGLISH := rfl
  rw [copyLangid, hword, Vector.toList_set, List.set_eq_take_append_cons_drop, if_pos (by omega)]
  simp

/-- **What a request leaves.** Behind the descriptor the buffer is as before. -/
theorem toList_descriptorStringCb {t : StringTable} {index : UInt8} {langid : UInt16}
    {buf words : ScratchBuffer} (h : tudDescriptorStringCb t index langid buf = some words) :
    let chars := (configured t index.toNat).take 31
    ∃ header : UInt16, header.toNat = 768 + (2 + 2 * chars.length) ∧
      words.toList = header :: chars ++ buf.toList.drop (1 + chars.length) := by
  intro chars
  have hlen : chars.length ≤ 31 := List.length_take_le 31 _
  unfold tudDescriptorStringCb at h
  split at h
  · cases h
  rename_i hin
  rw [Nat.not_le] at hin
  split at h
  · cases h
  by_cases h0 : index = 0
  · subst h0
    have hchars : chars = [LANGID_ENGLISH] := rfl
    simp only [if_true, Option.some.injEq] at h
    subst h
    refine ⟨_, ?_, toList_set_header (toList_copyLangid t buf) _⟩
    rw [header_toNat, hchars]
    rfl
  · have hne : index.toNat ≠ 0 := fun hz => h0 (UInt8.toNat_inj.mp hz)
    have hchars : chars = (utf16 (STRING_DESCRIPTORS t)[index.toNat]).take 31 := by
      simp only [chars, configured_string t hin hne]
    have hcount := utf16_cut_length (STRING_DESCRIPTORS t)[index.toNat]
    rw [← hchars] at hcount
    simp only [if_neg h0, Option.some.injEq] at h
    subst h
    refine ⟨_, ?_, toList_set_header ?_ _⟩
    · rw [header_toNat, ← hcount, UInt8.toNat_add, UInt8.toNat_ofNat']
      simp
      omega
    · rw [toList_copyString, ← hchars]

theorem descriptorStringCb_none_iff {t : StringTable} {index : UInt8} {langid : UInt16}
    {buf : ScratchBuffer} :
    tudDescriptorStringCb t index langid buf = none ↔
      NUM_STRING_DESCRIPTORS ≤ index.toNat ∨ index ≠ 0 ∧ langid ≠ LANGID_ENGLISH := by
  unfold tudDescriptorStringCb
  by_cases hin : index.toNat ≥ NUM_STRING_DESCRIPTORS
  · simp only [dif_pos hin, true_iff]
    exact .inl hin
  · rw [dif_neg hin]
    by_cases hl : index ≠ 0 ∧ langid ≠ LANGID_ENGLISH
    · rw [if_pos hl]
      exact iff_of_true rfl (.inr hl)
    · rw [if_neg hl]
      exact iff_of_false (by simp) (not_or.mpr ⟨hin, hl⟩)

/-! ## The descriptor in the buffer -/

theorem u16ToU8sLe_header {w : UInt16} {n : Nat} (h : w.toNat = 768 + n) (hn : n < 256) :
    u16ToU8sLe w = [UInt8.ofNat n, TUSB_DESC_STRING] := by
  have hlow : (768 + n) % 256 = n := by omega
  have hhigh : (768 + n) / 256 % 256 = 3 := by omega
  rw [u16ToU8sLe, h]
  simp only [leBytes, digits, hlow, hhigh]
  rfl

theorem wordBytes_length (words : List UInt16) : (words.flatMap u16ToU8sLe).length = 2 * words.length := by
  induction words with
  | nil => rfl
  | cons w words ih =>
    rw [List.flatMap_cons, List.length_append, ih, u16ToU8sLe, leBytes_length, List.length_cons]
    omega

theorem describes_of_toList {buf : ScratchBuffer} {header : UInt16} {chars rest : List UInt16}
    (hheader : header.toNat = 768 + (2 + 2 * chars.length)) (hlen : chars.length ≤ 31)
    (hbuf : buf.toList = header :: chars ++ rest) : Describes buf chars := by
  have h0 : buf[0] = header := by
    have h := congrArg (·[0]?) hbuf
    simpa using h
  have hbytes : buf.toList.flatMap u16ToU8sLe =
      (UInt8.ofNat (2 + 2 * chars.length) :: TUSB_DESC_STRING :: chars.flatMap u16ToU8sLe) ++
        rest.flatMap u16ToU8sLe := by
    rw [hbuf, List.flatMap_append, List.flatMap_cons, u16ToU8sLe_header hheader (by omega)]
    rfl
  refine ⟨?_, ?_, ?_, ?_, ?_⟩
  · have hwords : SCRATCH_BUFFER_WORDS = 32 := rfl
    omega
  · rw [h0, hheader]
    omega
  · have htype : TUSB_DESC_STRING.toNat = 3 := rfl
    rw [h0, hheader, htype]
    omega
  · rw [hbuf]
    exact List.take_left
  · rw [hbytes]
    apply List.take_left'
    rw [List.length_cons, List.length_cons, wordBytes_length]
    omega

theorem describes_configured {t : StringTable} {index : UInt8} {langid : UInt16}
    {buf words : ScratchBuffer} (h : tudDescriptorStringCb t index langid buf = some words) :
    Describes words ((configured t index.toNat).take 31) := by
  obtain ⟨header, hheader, hwords⟩ := toList_descriptorStringCb h
  exact describes_of_toList hheader (List.length_take_le 31 _) hwords

/-- **String descriptors decode to the configured strings**, whatever was
requested before. -/
theorem descriptorString_decodes (t : StringTable) (buf : ScratchBuffer)
    (reqs : List StringRequest) (index : UInt8) (langid : UInt16) :
    let res := tudDescriptorStringCb t index langid ((scratch t).runFrom buf reqs)
    let chars := configured t index.toNat
    let m := min chars.length 31
    (res = none ↔ 6 ≤ index.toNat ∨ index ≠ 0 ∧ langid ≠ 0x0409) ∧
    ∀ words, res = some words → (chars.take m).length = m ∧ Describes words (chars.take m) := by
  intro res chars m
  refine ⟨descriptorStringCb_none_iff, ?_⟩
  intro words hres
  have hcut : chars.take m = chars.take 31 := by
    simp only [m]
    rw [Nat.min_comm, ← List.take_eq_take_min]
  refine ⟨by simp [m], ?_⟩
  rw [hcut]
  exact describes_configured hres

/-! ## Reading it on the host -/

/-- The characters of a string descriptor, as many as its length field says. -/
def readStringDescriptor : Reader (List Nat) := do
  let bLength ← readUInt 1
  let bDescriptorType ← readUInt 1
  if bDescriptorType = TUSB_DESC_STRING.toNat then readMany (readUInt 2) ((bLength - 2) / 2)
  else failure

theorem reads_byte {n : Nat} (h : n < 256) : Reads (readUInt 1) [UInt8.ofNat n] n := by
  have hbyte : leBytes 1 n = [UInt8.ofNat n] := by
    simp [leBytes, digits, Nat.mod_eq_of_lt h]
  have hread := Reads.uint (w := 1) (v := n) h
  rwa [hbyte] at hread

theorem reads_stringDescriptor {chars : List UInt16} (hlen : chars.length ≤ 31) :
    Reads readStringDescriptor
      (UInt8.ofNat (2 + 2 * chars.length) :: TUSB_DESC_STRING :: chars.flatMap u16ToU8sLe)
      (chars.map UInt16.toNat) := by
  have hcount : (2 + 2 * chars.length - 2) / 2 = (chars.map UInt16.toNat).length := by
    rw [List.length_map]
    omega
  have hwords : ∀ v ∈ chars.map UInt16.toNat, Reads (readUInt 2) (leBytes 2 v) v := by
    intro v hv
    obtain ⟨c, -, rfl⟩ := List.mem_map.mp hv
    exact Reads.uint c.toNat_lt
  have hchars := Reads.many (leBytes 2) _ hwords
  rw [List.flatMap_map] at hchars
  refine (reads_byte (n := 2 + 2 * chars.length) (by omega)).bind ?_
  refine (reads_byte (n := 3) (by decide)).bind ?_
  have htype : 3 = TUSB_DESC_STRING.toNat := rfl
  rw [if_pos htype, hcount]
  exact hchars

/-- What a host reads from the buffer. -/
theorem readString_descriptor {t : StringTable} {index : UInt8} {langid : UInt16}
    {buf words : ScratchBuffer} (h : tudDescriptorStringCb t index langid buf = some words) :
    ∃ rest, readStringDescriptor.run (words.toList.flatMap u16ToU8sLe) =
      some (((configured t index.toNat).take 31).map UInt16.toNat, rest) := by
  have hlen := List.length_take_le 31 (configured t index.toNat)
  have hbytes := (describes_configured h).bytes
  have hread := reads_stringDescriptor hlen
  rw [← hbytes] at hread
  refine ⟨_, (congrArg _ (List.take_append_drop _ _).symm).trans (hread _)⟩

/-! ## The strings of the device -/

/-- The serial number is set when the firmware is built.
mirrors src/UsbDescriptors.c:32-35 -/
def relaconStrings (serialNum : List UInt8) : StringTable where
  manufacturer := ascii ("Frank Jenner".toList)
  product := ascii ("Relacon Relay Controller".toList)
  serialNum := serialNum
  config1 := ascii ("Relacon Standard Configuration".toList)
  interface0 := ascii ("Relacon Relay Interface".toList)

/-- No string is cut, unless the serial number is longer than 31 characters. -/
theorem relaconStrings_whole {serialNum : List UInt8} (h : strlen serialNum ≤ 31) (i : Nat) :
    (configured (relaconStrings serialNum) i).take 31 = configured (relaconStrings serialNum) i := by
  have hfixed : ∀ j ∈ [0, 1, 2, 4, 5], (configured (relaconStrings []) j).length ≤ 31 := by decide
  apply List.take_of_length_le
  match i with
  | 0 => exact hfixed 0 (by decide)
  | 1 => exact hfixed 1 (by decide)
  | 2 => exact hfixed 2 (by decide)
  | 3 => simpa [configured, relaconStrings, utf16, strlen] using h
  | 4 => exact hfixed 4 (by decide)
  | 5 => exact hfixed 5 (by decide)
  | _ + 6 => simp [configured]

end Relacon.L5
