import Mathlib.Data.List.FinRange
import Mathlib.Tactic.Common

/-!
# Loops over a fixed-size array

* `updateAll f v`: `for (i = 0; i < n; i++) v[i] = f(i, v[i])`. The iterations
  do not interfere (`getElem_updateAll`).
* `fillUp` / `fillDown`: `for` loops that store a value computed from the index,
  counting up, or down with a quotient carried along. Both leave the first `k`
  entries filled and the rest alone.
* `fillAt`: the same from an offset on, where every store is shown to be in bounds.
-/
namespace Relacon.Core
variable {α : Type} {n : Nat}

def updateAll (f : Fin n → α → α) (v : Vector α n) : Vector α n :=
  (List.finRange n).foldl (fun v (i : Fin n) => v.set i (f i v[i])) v

theorem getElem_foldl_set (f : Fin n → α → α) (l : List (Fin n)) (hl : l.Nodup) (v : Vector α n)
    (i : Fin n) :
    (l.foldl (fun v (i : Fin n) => v.set i (f i v[i])) v)[i] = if i ∈ l then f i v[i] else v[i] := by
  induction l generalizing v with
  | nil => simp
  | cons j l ih =>
    rw [List.nodup_cons] at hl
    rw [List.foldl_cons, ih hl.2]
    by_cases hij : i = j
    · subst hij
      simp [hl.1]
    · have hne : j.val ≠ i.val := fun h => hij (Fin.ext h.symm)
      simp [hij, hne]

/-- Entry `i` is updated once, from its own old value. -/
@[simp] theorem getElem_updateAll (f : Fin n → α → α) (v : Vector α n) (i : Fin n) :
    (updateAll f v)[i] = f i v[i] := by
  rw [updateAll, getElem_foldl_set f _ (List.nodup_finRange n), if_pos (List.mem_finRange i)]

/-! ## Filling the first entries -/

def fillUp (g : Nat → α) (k : Nat) (v : Vector α n) : Vector α n :=
  (List.range k).foldl (fun v i => v.setIfInBounds i (g i)) v

def fillDown {β : Type} (out : β → α) (next : β → β) : Nat → β → Vector α n → Vector α n
  | 0, _, v => v
  | i + 1, b, v => fillDown out next i (next b) (v.setIfInBounds i (out b))

/-- What `fillDown` leaves in the first `k` entries. -/
def unroll {β : Type} (out : β → α) (next : β → β) : Nat → β → List α
  | 0, _ => []
  | i + 1, b => unroll out next i (next b) ++ [out b]

theorem set_prefix (l m : List α) (x : α) (h : l.length < m.length) :
    (l ++ m.drop l.length).set l.length x = (l ++ [x]) ++ m.drop (l.length + 1) := by
  rw [List.set_append_right l.length x (Nat.le_refl _), Nat.sub_self, List.drop_eq_getElem_cons h,
    List.set_cons_zero, List.append_assoc, List.singleton_append]

theorem toList_fillUp (g : Nat → α) {k : Nat} (hk : k ≤ n) (v : Vector α n) :
    (fillUp g k v).toList = (List.range k).map g ++ v.toList.drop k := by
  induction k with
  | zero => simp [fillUp]
  | succ k ih =>
    have hlen : ((List.range k).map g).length = k := by simp
    have := set_prefix ((List.range k).map g) v.toList (g k) (by simp; omega)
    rw [hlen] at this
    rw [fillUp, List.range_succ, List.foldl_append, List.foldl_cons, List.foldl_nil]
    rw [Vector.toList_setIfInBounds, ← fillUp, ih (by omega), this]
    simp

theorem toList_fillDown {β : Type} (out : β → α) (next : β → β) {k : Nat} (hk : k ≤ n) (b : β)
    (v : Vector α n) :
    (fillDown out next k b v).toList = unroll out next k b ++ v.toList.drop k := by
  induction k generalizing b v with
  | zero => simp [fillDown, unroll]
  | succ k ih =>
    have hlt : k < v.toList.length := by simp; omega
    rw [fillDown, ih (by omega), unroll, Vector.toList_setIfInBounds, List.append_assoc,
      List.drop_set, if_neg (Nat.lt_irrefl k), Nat.sub_self, List.drop_eq_getElem_cons hlt,
      List.set_cons_zero, List.singleton_append]

/-! ## Filling from an offset -/

/-- `for (i = 0; i < k; i++) v[o + i] = g(i)`. -/
def fillAt (o : Nat) (g : Nat → α) : (k : Nat) → o + k ≤ n → Vector α n → Vector α n
  | 0, _, v => v
  | k + 1, h, v => (fillAt o g k (by omega) v).set (o + k) (g k) (by omega)

theorem toList_fillAt (o : Nat) (g : Nat → α) (k : Nat) (h : o + k ≤ n) (v : Vector α n) :
    (fillAt o g k h v).toList =
      v.toList.take o ++ (List.range k).map g ++ v.toList.drop (o + k) := by
  induction k with
  | zero => simp [fillAt]
  | succ k ih =>
    have hlen : (v.toList.take o ++ (List.range k).map g).length = o + k := by
      simp
      omega
    have := set_prefix (v.toList.take o ++ (List.range k).map g) v.toList (g k) (by simp; omega)
    rw [hlen] at this
    rw [fillAt, Vector.toList_set, ih (by omega), this, List.range_succ, List.map_append,
      List.map_singleton, List.append_assoc (v.toList.take o), Nat.add_assoc]

end Relacon.Core
