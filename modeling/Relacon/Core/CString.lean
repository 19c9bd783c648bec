import Mathlib.Data.List.TakeWhile
import Relacon.Core.Digits

/-!
# C strings and the string functions of the standard library

A `const char *` is modelled by the bytes of memory from that address on; past
the listed bytes memory reads as NUL, so every string is terminated. `cstr p`
is the string at `p` without its terminator.

`strlen`, `strnlen`, `strncasecmp`, `toupper` and base-10 `strtoul` behave as in
standard C, C locale, with a 32-bit `unsigned long`. Each of them depends on
`cstr p` only, up to the bytes it was asked to read:

* `strncasecmp_eq_zero_iff`: a match is a case-insensitive prefix.
* `strtoul_cstr`: `strtoul` never looks behind the terminator.
* `strtoul_end_iff`: it consumes the whole string exactly for the empty string
  and for blanks, an optional sign and at least one digit (`Numeric`).
-/
namespace Relacon.Core

/-- The bytes of an ASCII literal. -/
def ascii (cs : List Char) : List UInt8 := cs.map Char.toUInt8

def deref (p : List UInt8) : UInt8 := p.headD 0

def cstr : List UInt8 → List UInt8
  | [] => []
  | c :: p => if c = 0 then [] else c :: cstr p

def strlen (p : List UInt8) : Nat := (cstr p).length

def strnlen (p : List UInt8) (n : Nat) : Nat := (cstr (p.take n)).length

def toupper (c : UInt8) : UInt8 := if 97 ≤ c ∧ c ≤ 122 then c - 32 else c

def tolower (c : UInt8) : UInt8 := if 65 ≤ c ∧ c ≤ 90 then c + 32 else c

def isspace (c : UInt8) : Bool := c == 32 || (9 ≤ c && c ≤ 13)

def strncasecmp : List UInt8 → List UInt8 → Nat → Int
  | _, _, 0 => 0
  | p, q, n + 1 =>
    if tolower (deref p) = tolower (deref q) then
      if deref p = 0 then 0 else strncasecmp p.tail q.tail n
    else ((tolower (deref p)).toNat : Int) - (tolower (deref q)).toNat

/-- Past an optional `+` (43) or `-` (45). -/
def skipSign (p : List UInt8) : List UInt8 := if deref p = 43 ∨ deref p = 45 then p.tail else p

/-- The `unsigned long` for a digit string of value `v`: clamped on overflow,
negated modulo `2 ^ 32` behind a minus sign. -/
def ulong (neg : Bool) (v : Nat) : UInt32 :=
  if 2 ^ 32 ≤ v then 0xffffffff else if neg then 0 - UInt32.ofNat v else UInt32.ofNat v

/-- `strtoul(p, &endptr, 10)`: the value and `endptr`. Without a digit nothing
is converted and `endptr` is `p`. -/
def strtoul (p : List UInt8) : UInt32 × List UInt8 :=
  let q := p.dropWhile isspace
  let r := skipSign q
  let ds := r.takeWhile isdigit
  if ds = [] then (0, p) else (ulong (deref q == 45) (ofNumeral 10 ds), r.dropWhile isdigit)

/-- `memcpy(dst, src, n)` on the memory from `dst` on. -/
def memcpy (dst src : List UInt8) (n : Nat) : List UInt8 := src.take n ++ dst.drop n

/-- `memset(&dst[off], c, n)` on the memory from `dst` on. -/
def memset (dst : List UInt8) (off : Nat) (c : UInt8) (n : Nat) : List UInt8 :=
  dst.take off ++ List.replicate n c ++ dst.drop (off + n)

/-! ## The string at a pointer -/

@[simp] theorem deref_nil : deref [] = 0 := rfl

@[simp] theorem deref_cons (c : UInt8) (p : List UInt8) : deref (c :: p) = c := rfl

@[simp] theorem cstr_nil : cstr [] = [] := rfl

@[simp] theorem cstr_nul (p : List UInt8) : cstr (0 :: p) = [] := rfl

@[simp] theorem cstr_cons {c : UInt8} (hc : c ≠ 0) (p : List UInt8) :
    cstr (c :: p) = c :: cstr p := if_neg hc

theorem cstr_no_nul (p : List UInt8) : ∀ c ∈ cstr p, c ≠ 0 := by
  induction p with
  | nil => simp
  | cons d p ih =>
    by_cases hd : d = 0
    · simp [hd]
    · simpa [hd] using ih

theorem cstr_append {q : List UInt8} (h : ∀ c ∈ q, c ≠ 0) (p : List UInt8) :
    cstr (q ++ p) = q ++ cstr p := by
  induction q with
  | nil => rfl
  | cons c q ih =>
    have hc : c ≠ 0 := h c (by simp)
    have hq := ih fun x hx => h x (by simp [hx])
    rw [List.cons_append, cstr_cons hc, hq, List.cons_append]

theorem cstr_of_no_nul {s : List UInt8} (h : ∀ c ∈ s, c ≠ 0) : cstr s = s := by
  simpa using cstr_append h []

theorem cstr_append_nul {s : List UInt8} (h : ∀ c ∈ s, c ≠ 0) (rest : List UInt8) :
    cstr (s ++ 0 :: rest) = s := by
  simpa using cstr_append h (0 :: rest)

/-- Behind a NUL nothing belongs to the string. -/
theorem cstr_append_of_mem {q : List UInt8} (h : 0 ∈ q) (p : List UInt8) :
    cstr (q ++ p) = cstr q := by
  induction q with
  | nil => simp at h
  | cons c q ih =>
    by_cases hc : c = 0
    · simp [hc]
    · have hq : 0 ∈ q := by simpa [Ne.symm hc] using h
      rw [List.cons_append, cstr_cons hc, ih hq, cstr_cons hc]

@[simp] theorem cstr_cstr (p : List UInt8) : cstr (cstr p) = cstr p :=
  cstr_of_no_nul (cstr_no_nul p)

theorem deref_eq_zero_iff (p : List UInt8) : deref p = 0 ↔ cstr p = [] := by
  cases p with
  | nil => simp
  | cons c p => by_cases hc : c = 0 <;> simp [hc]

@[simp] theorem deref_cstr (p : List UInt8) : deref (cstr p) = deref p := by
  cases p with
  | nil => rfl
  | cons c p => by_cases hc : c = 0 <;> simp [hc]

theorem cstr_tail {p : List UInt8} (h : cstr p ≠ []) : cstr p.tail = (cstr p).tail := by
  cases p with
  | nil => rfl
  | cons c p =>
    by_cases hc : c = 0
    · simp [hc] at h
    · simp [hc]

theorem cstr_drop {n : Nat} {p : List UInt8} (h : n ≤ (cstr p).length) :
    cstr (p.drop n) = (cstr p).drop n := by
  induction n generalizing p with
  | zero => rfl
  | succ n ih =>
    have hne : cstr p ≠ [] := by intro he; rw [he] at h; simp at h
    have htail := cstr_tail hne
    have hlen : n ≤ (cstr p.tail).length := by rw [htail, List.length_tail]; omega
    rw [← List.drop_tail, ih hlen, htail, List.drop_tail]

theorem cstr_prefix (p : List UInt8) : cstr p <+: p := by
  induction p with
  | nil => exact List.prefix_rfl
  | cons c p ih =>
    by_cases hc : c = 0
    · simp [hc]
    · rw [cstr_cons hc, List.cons_prefix_cons]
      exact ⟨rfl, ih⟩

theorem take_cstr {n : Nat} {p : List UInt8} (h : n ≤ (cstr p).length) :
    (cstr p).take n = p.take n := by
  obtain ⟨t, ht⟩ := cstr_prefix p
  rw [← ht, List.take_append_of_le_length (by simpa [ht] using h), ht]

/-- A loop that reads `n` characters of a string reads its first `n` characters. -/
theorem map_deref_drop {n : Nat} {p : List UInt8} (h : n ≤ (cstr p).length) :
    (List.range n).map (fun i => deref (p.drop i)) = (cstr p).take n := by
  have hp := cstr_prefix p
  have hle := hp.length_le
  rw [take_cstr h]
  induction n with
  | zero => rfl
  | succ n ih =>
    have hn : n < p.length := by omega
    rw [List.range_succ, List.map_append, ih (by omega), List.take_succ_eq_append_getElem hn,
      List.map_singleton, List.drop_eq_getElem_cons hn, deref_cons]

theorem strnlen_eq_min (p : List UInt8) (n : Nat) : strnlen p n = min (strlen p) n := by
  induction p generalizing n with
  | nil => simp [strnlen, strlen]
  | cons c p ih =>
    cases n with
    | zero => simp [strnlen]
    | succ n =>
      have hn := ih n
      by_cases hc : c = 0
      · simp [strnlen, strlen, hc]
      · simp only [strnlen, strlen] at hn
        simp [strnlen, strlen, hc, hn]

theorem ascii_no_nul {cs : List Char} (h : cs.all (·.toUInt8 != 0) = true) :
    ∀ c ∈ ascii cs, c ≠ 0 := by
  intro c hc
  obtain ⟨x, hx, rfl⟩ := List.mem_map.mp hc
  simpa using List.all_eq_true.mp h x hx

/-! ## Case -/

theorem toupper_cases (c : UInt8) :
    97 ≤ c.toNat ∧ c.toNat ≤ 122 ∧ (toupper c).toNat = c.toNat - 32 ∨
      (c.toNat < 97 ∨ 122 < c.toNat) ∧ (toupper c).toNat = c.toNat := by
  unfold toupper
  simp only [UInt8.le_iff_toNat_le, UInt8.reduceToNat]
  split
  · rename_i h
    have hsub : (c - 32).toNat = c.toNat - 32 :=
      UInt8.toNat_sub_of_le _ _ (UInt8.le_iff_toNat_le.mpr (show 32 ≤ c.toNat by omega))
    exact .inl ⟨h.1, h.2, hsub⟩
  · exact .inr ⟨by omega, rfl⟩

theorem tolower_cases (c : UInt8) :
    65 ≤ c.toNat ∧ c.toNat ≤ 90 ∧ (tolower c).toNat = c.toNat + 32 ∨
      (c.toNat < 65 ∨ 90 < c.toNat) ∧ (tolower c).toNat = c.toNat := by
  unfold tolower
  simp only [UInt8.le_iff_toNat_le, UInt8.reduceToNat]
  split
  · rename_i h
    have hadd : (c + 32).toNat = c.toNat + 32 := by
      rw [UInt8.toNat_add]
      exact Nat.mod_eq_of_lt (show c.toNat + 32 < 256 by omega)
    exact .inl ⟨h.1, h.2, hadd⟩
  · exact .inr ⟨by omega, rfl⟩

theorem tolower_eq_iff (a b : UInt8) : tolower a = tolower b ↔ toupper a = toupper b := by
  rw [← UInt8.toNat_inj, ← UInt8.toNat_inj]
  have := toupper_cases a
  have := toupper_cases b
  have := tolower_cases a
  have := tolower_cases b
  omega

/-- What lies below the letters has no case. -/
theorem toupper_eq_iff {c k : UInt8} (hk : k.toNat < 65) : toupper c = k ↔ c = k := by
  have := toupper_cases c
  rw [← UInt8.toNat_inj, ← UInt8.toNat_inj]
  omega

theorem toupper_eq_zero_iff (c : UInt8) : toupper c = 0 ↔ c = 0 := toupper_eq_iff (by decide)

@[simp] theorem toupper_toupper (c : UInt8) : toupper (toupper c) = toupper c := by
  have := toupper_cases c
  have := toupper_cases (toupper c)
  apply UInt8.toNat_inj.mp
  omega

theorem isspace_iff (c : UInt8) : isspace c = true ↔ c.toNat = 32 ∨ 9 ≤ c.toNat ∧ c.toNat ≤ 13 := by
  simp [isspace, UInt8.le_iff_toNat_le, ← UInt8.toNat_inj]

@[simp] theorem isdigit_toupper (c : UInt8) : isdigit (toupper c) = isdigit c := by
  have := toupper_cases c
  rw [Bool.eq_iff_iff, isdigit_iff, isdigit_iff]
  omega

@[simp] theorem isspace_toupper (c : UInt8) : isspace (toupper c) = isspace c := by
  have := toupper_cases c
  rw [Bool.eq_iff_iff, isspace_iff, isspace_iff]
  omega

theorem toupper_of_isdigit {c : UInt8} (h : isdigit c = true) : toupper c = c := by
  have := (isdigit_iff c).mp h
  exact (toupper_eq_iff (by omega)).mpr rfl

/-- `q` is an initial part of the string at `p`, up to case. -/
theorem strncasecmp_eq_zero_iff (p : List UInt8) {q : List UInt8} (hq : ∀ c ∈ q, c ≠ 0) :
    strncasecmp p q q.length = 0 ↔ (p.take q.length).map toupper = q.map toupper := by
  induction q generalizing p with
  | nil => simp [strncasecmp]
  | cons c q ih =>
    have hc : c ≠ 0 := hq c (by simp)
    have hq' : ∀ x ∈ q, x ≠ 0 := fun x hx => hq x (by simp [hx])
    have hup : toupper 0 ≠ toupper c := fun h => hc ((toupper_eq_zero_iff c).mp h.symm)
    have hsub : ∀ d, toupper d ≠ toupper c → ((tolower d).toNat : Int) - (tolower c).toNat ≠ 0 := by
      intro d hd he
      have hnat : (tolower d).toNat = (tolower c).toNat := by omega
      exact hd ((tolower_eq_iff d c).mp (UInt8.toNat_inj.mp hnat))
    cases p with
    | nil =>
      rw [List.length_cons, strncasecmp, deref_nil, deref_cons,
        if_neg fun h => hup ((tolower_eq_iff 0 c).mp h)]
      simpa using hsub 0 hup
    | cons d p =>
      rw [List.length_cons, strncasecmp, deref_cons, deref_cons]
      simp only [List.tail_cons, List.take_succ_cons, List.map_cons, List.cons.injEq]
      by_cases hd : toupper d = toupper c
      · have hd0 : d ≠ 0 := by rintro rfl; exact hup hd
        rw [if_pos ((tolower_eq_iff d c).mpr hd), if_neg hd0, ih p hq']
        simp [hd]
      · rw [if_neg fun h => hd ((tolower_eq_iff d c).mp h)]
        simp [hd, hsub d hd]

/-! ## Conversion -/

theorem cstr_dropWhile {f : UInt8 → Bool} (hf : f 0 = false) (p : List UInt8) :
    cstr (p.dropWhile f) = (cstr p).dropWhile f := by
  induction p with
  | nil => rfl
  | cons c p ih =>
    by_cases hc : c = 0
    · subst hc; simp [hf]
    · by_cases hfc : f c = true <;> simp [hc, hfc, ih]

theorem takeWhile_cstr {f : UInt8 → Bool} (hf : f 0 = false) (p : List UInt8) :
    (cstr p).takeWhile f = p.takeWhile f := by
  induction p with
  | nil => rfl
  | cons c p ih =>
    by_cases hc : c = 0
    · subst hc; simp [hf]
    · by_cases hfc : f c = true <;> simp [hc, hfc, ih]

theorem cstr_skipSign (p : List UInt8) : cstr (skipSign p) = skipSign (cstr p) := by
  unfold skipSign
  rw [deref_cstr]
  split
  · rename_i h
    have hne : cstr p ≠ [] := by
      intro he
      rw [← deref_eq_zero_iff] at he
      rw [he] at h
      revert h; decide
    exact cstr_tail hne
  · rfl

/-- `strtoul` reads the string and nothing behind its terminator. -/
theorem strtoul_cstr (p : List UInt8) : strtoul (cstr p) = ((strtoul p).1, cstr (strtoul p).2) := by
  have hq := cstr_dropWhile (f := isspace) rfl p
  have hr := cstr_skipSign (p.dropWhile isspace)
  have hds := takeWhile_cstr (f := isdigit) rfl (skipSign (p.dropWhile isspace))
  have hend := cstr_dropWhile (f := isdigit) rfl (skipSign (p.dropWhile isspace))
  simp only [strtoul]
  rw [← hq, ← hr, hds, deref_cstr, ← hend]
  split <;> rfl

theorem deref_upper (p : List UInt8) : deref (p.map toupper) = toupper (deref p) := by
  cases p <;> rfl

theorem skipSign_upper (p : List UInt8) : skipSign (p.map toupper) = (skipSign p).map toupper := by
  unfold skipSign
  have hsign : ∀ c, toupper c = 43 ∨ toupper c = 45 ↔ c = 43 ∨ c = 45 := by
    intro c
    rw [toupper_eq_iff (by decide), toupper_eq_iff (by decide)]
  simp only [deref_upper, hsign]
  split
  · exact List.map_tail.symm
  · rfl

/-- The case of letters only shows in what `strtoul` leaves. -/
theorem strtoul_upper (p : List UInt8) :
    strtoul (p.map toupper) = ((strtoul p).1, (strtoul p).2.map toupper) := by
  have hspace : isspace ∘ toupper = isspace := funext isspace_toupper
  have hdigit : isdigit ∘ toupper = isdigit := funext isdigit_toupper
  have hq : (p.map toupper).dropWhile isspace = (p.dropWhile isspace).map toupper := by
    rw [List.dropWhile_map, hspace]
  have hds : ∀ r : List UInt8, (r.map toupper).takeWhile isdigit = r.takeWhile isdigit := by
    intro r
    rw [List.takeWhile_map, hdigit, List.map_congr_left (g := id), List.map_id]
    intro c hc
    exact toupper_of_isdigit (List.mem_takeWhile_imp hc)
  have hend : ∀ r : List UInt8, (r.map toupper).dropWhile isdigit = (r.dropWhile isdigit).map toupper := by
    intro r
    rw [List.dropWhile_map, hdigit]
  have hneg : ∀ c, (toupper c == 45) = (c == 45) := by
    intro c
    rw [Bool.eq_iff_iff, beq_iff_eq, beq_iff_eq, toupper_eq_iff (by decide)]
  simp only [strtoul]
  rw [hq, skipSign_upper, hds, hend, deref_upper, hneg]
  split <;> rfl

/-- Blanks, an optional sign and at least one digit. -/
def Numeric (ws sgn ds : List UInt8) : Prop :=
  (∀ c ∈ ws, isspace c = true) ∧ (sgn = [] ∨ sgn = [43] ∨ sgn = [45]) ∧
    ds ≠ [] ∧ ∀ c ∈ ds, isdigit c = true

theorem isdigit_not_space {c : UInt8} (h : isdigit c = true) :
    isspace c = false ∧ c ≠ 43 ∧ c ≠ 45 := by
  have hd := (isdigit_iff c).mp h
  refine ⟨?_, ?_, ?_⟩
  · rw [Bool.eq_false_iff, Ne, isspace_iff]
    omega
  · rintro rfl
    simp at hd
  · rintro rfl
    simp at hd

theorem strtoul_numeric {ws sgn ds : List UInt8} (h : Numeric ws sgn ds) :
    strtoul (ws ++ sgn ++ ds) = (ulong (sgn == [45]) (ofNumeral 10 ds), []) := by
  obtain ⟨hws, hsgn, hne, hds⟩ := h
  obtain ⟨d, ds', rfl⟩ := List.exists_cons_of_ne_nil hne
  have hd := isdigit_not_space (hds d (by simp))
  have hq : (ws ++ sgn ++ d :: ds').dropWhile isspace = sgn ++ d :: ds' := by
    rw [List.append_assoc, List.dropWhile_append_of_pos hws]
    rcases hsgn with rfl | rfl | rfl
    · simp [hd.1]
    · rfl
    · rfl
  have hr : skipSign (sgn ++ d :: ds') = d :: ds' := by
    rcases hsgn with rfl | rfl | rfl
    · simp [skipSign, hd.2]
    · rfl
    · rfl
  have hneg : (deref (sgn ++ d :: ds') == 45) = (sgn == [45]) := by
    rcases hsgn with rfl | rfl | rfl
    · simp [hd.2]
    · rfl
    · rfl
  have htake : (d :: ds').takeWhile isdigit = d :: ds' := List.takeWhile_eq_self_iff.mpr hds
  have hdrop : (d :: ds').dropWhile isdigit = [] := List.dropWhile_eq_nil_iff.mpr hds
  simp only [strtoul]
  rw [hq, hr, htake, hdrop, hneg, if_neg hne]

theorem strtoul_singleton (c : UInt8) :
    strtoul [c] = if isdigit c then (UInt32.ofNat (digitVal c), []) else (0, [c]) := by
  by_cases hd : isdigit c = true
  · have hnum := strtoul_numeric (show Numeric [] [] [c] from ⟨by simp, .inl rfl, by simp, by simpa⟩)
    have hval : ofNumeral 10 [c] = digitVal c := by simp [ofNumeral, ofDigits]
    have hsmall : ¬ 2 ^ 32 ≤ digitVal c := by
      have := digitVal_lt hd
      omega
    rw [hval, ulong, if_neg hsmall] at hnum
    rw [if_pos hd]
    exact hnum
  · have hds : (skipSign ([c].dropWhile isspace)).takeWhile isdigit = [] := by
      by_cases hs : isspace c = true
      · simp [hs, skipSign]
      · by_cases hsign : c = 43 ∨ c = 45 <;> simp [hs, skipSign, hsign, hd]
    simp [strtoul, hds, hd]

theorem strtoul_end_iff (s : List UInt8) :
    (strtoul s).2 = [] ↔ s = [] ∨ ∃ ws sgn ds, s = ws ++ sgn ++ ds ∧ Numeric ws sgn ds := by
  refine ⟨fun h => ?_, fun hx => ?_⟩
  · by_cases hds : (skipSign (s.dropWhile isspace)).takeWhile isdigit = []
    · left
      simpa [strtoul, hds] using h
    · right
      have hend : (skipSign (s.dropWhile isspace)).dropWhile isdigit = [] := by
        simpa [strtoul, hds] using h
      have hall := List.dropWhile_eq_nil_iff.mp hend
      have hne : skipSign (s.dropWhile isspace) ≠ [] := by
        intro he
        rw [he] at hds
        exact hds rfl
      have hblank : ∀ c ∈ s.takeWhile isspace, isspace c = true := fun c hc =>
        List.mem_takeWhile_imp hc
      have hsplit : ∃ sgn, s.dropWhile isspace = sgn ++ skipSign (s.dropWhile isspace) ∧
          (sgn = [] ∨ sgn = [43] ∨ sgn = [45]) := by
        unfold skipSign
        split
        · rename_i hs
          cases hq : s.dropWhile isspace with
          | nil => rw [hq] at hs; exact absurd hs (by decide)
          | cons c q =>
            rw [hq, deref_cons] at hs
            exact ⟨[c], rfl, by rcases hs with rfl | rfl <;> simp⟩
        · exact ⟨[], rfl, .inl rfl⟩
      obtain ⟨sgn, hsgn, hcase⟩ := hsplit
      refine ⟨s.takeWhile isspace, sgn, skipSign (s.dropWhile isspace), ?_, hblank, hcase, hne, hall⟩
      rw [List.append_assoc, ← hsgn, List.takeWhile_append_dropWhile]
  · rcases hx with rfl | ⟨ws, sgn, ds, rfl, h⟩
    · rfl
    · rw [strtoul_numeric h]

/-! ## Memory -/

/-- Writing `s` over the memory `buf` leaves the memory behind `n` alone. -/
theorem drop_overwritten_iff {n : Nat} {s buf : List UInt8} (h : n ≤ s.length) :
    (s ++ buf.drop s.length).drop n = buf.drop n ↔ s.drop n <+: buf.drop n := by
  rw [List.drop_append_of_le_length h]
  refine ⟨fun heq => ⟨_, heq⟩, ?_⟩
  rintro ⟨t, ht⟩
  have hdrop : buf.drop s.length = t := by
    have hsplit : n + (s.length - n) = s.length := by omega
    rw [← hsplit, ← List.drop_drop, ← ht, ← List.length_drop, List.drop_left]
  rw [hdrop, ht]

end Relacon.Core
