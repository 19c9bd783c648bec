import Mathlib.Data.List.Infix
import Mathlib.Tactic.Common

/-!
# First match in a table of prefixes

A table is searched in order for the first entry whose key begins the input, so
an earlier entry wins over a later one of any length. `PrefixOrdered`: no key
begins a later one. In such a table the first match is the longest match, and
the only one of its length (`find_longest_iff`).
-/
namespace Relacon.Core
variable {ε α : Type} {key : ε → List α} {table : List ε} {s : List α} {e e' : ε}

/-- A more special key stands before the keys it begins with. -/
def PrefixOrdered (key : ε → List α) (table : List ε) : Prop :=
  table.Pairwise fun e e' => ¬ key e <+: key e'

instance [DecidableEq α] (key : ε → List α) (table : List ε) : Decidable (PrefixOrdered key table) :=
  inferInstanceAs (Decidable (List.Pairwise _ table))

/-- Of all entries whose keys begin `s`, `e` has the longest key. -/
structure LongestMatch (key : ε → List α) (table : List ε) (s : List α) (e : ε) : Prop where
  mem : e ∈ table
  begins : key e <+: s
  longest : ∀ e' ∈ table, key e' <+: s → e' ≠ e → (key e').length < (key e).length

theorem LongestMatch.unique (h : LongestMatch key table s e) (h' : LongestMatch key table s e') :
    e = e' := by
  by_contra hne
  have hlt := h.longest e' h'.mem h'.begins (Ne.symm hne)
  have hgt := h'.longest e h.mem h.begins hne
  omega

/-- Of two keys that begin the same input, one that does not begin the other is longer. -/
theorem length_lt_of_not_prefix {p q : List α} (hp : p <+: s) (hq : q <+: s) (hne : ¬ p <+: q) :
    q.length < p.length := by
  by_contra hle
  exact hne (List.prefix_of_prefix_length_le hp hq (by omega))

variable [DecidableEq α]

theorem LongestMatch.of_find (h : PrefixOrdered key table)
    (hf : table.find? (fun e => decide (key e <+: s)) = some e) : LongestMatch key table s e := by
  obtain ⟨hbegins, as, bs, rfl, has⟩ := List.find?_eq_some_iff_append.mp hf
  rw [decide_eq_true_iff] at hbegins
  refine ⟨by simp, hbegins, ?_⟩
  intro e' hmem hbegins' hne
  -- the entries before the first match do not match, so `e'` stands behind it
  have hbehind : e' ∈ bs := by
    rw [List.mem_append, List.mem_cons] at hmem
    rcases hmem with hbefore | rfl | hbehind
    · have := has e' hbefore
      simp [hbegins'] at this
    · exact absurd rfl hne
    · exact hbehind
  have hafter := (List.pairwise_cons.mp (List.pairwise_append.mp h).2.1).1
  exact length_lt_of_not_prefix hbegins hbegins' (hafter e' hbehind)

/-- **First match is longest match.** -/
theorem find_longest_iff (h : PrefixOrdered key table) :
    table.find? (fun e => decide (key e <+: s)) = some e ↔ LongestMatch key table s e := by
  refine ⟨LongestMatch.of_find h, fun hl => ?_⟩
  have hsome : (table.find? fun e => decide (key e <+: s)).isSome = true := by
    rw [List.find?_isSome]
    exact ⟨e, hl.mem, by simpa using hl.begins⟩
  obtain ⟨e₀, he₀⟩ := Option.isSome_iff_exists.mp hsome
  rw [he₀, hl.unique (LongestMatch.of_find h he₀)]

theorem find_none_iff :
    table.find? (fun e => decide (key e <+: s)) = none ↔ ∀ e ∈ table, ¬ key e <+: s := by
  simp

theorem longest_or_none (h : PrefixOrdered key table) (s : List α) :
    (∃ e, LongestMatch key table s e) ∨ ∀ e ∈ table, ¬ key e <+: s := by
  cases hfind : table.find? (fun e => decide (key e <+: s)) with
  | none => exact .inr (find_none_iff.mp hfind)
  | some e => exact .inl ⟨e, (find_longest_iff h).mp hfind⟩

end Relacon.Core
