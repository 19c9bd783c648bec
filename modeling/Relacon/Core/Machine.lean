import Mathlib.Data.List.Induction
import Mathlib.Tactic.Common

/-!
# Deterministic machines and their runs

A `Machine` has one initial state and a total step function; a run is the fold
of the step over a list of events, oldest first. Nothing here names a program.

* `Inductive`: a predicate that holds initially and survives every step;
  `Inductive.run` and `Inductive.reachable` carry it to whole runs.
* `ghost`: a history variable, updated from the state before each step. Two
  special cases are used: `latest` (the most recent value reported by a step)
  and `total` (the sum of the values reported).
* `HistInductive`: an invariant that ties the state to the history, over the
  runs admitted by a prefix-closed predicate.
* `Always`: a property of every step of a run; two step properties that agree
  under an invariant agree on every run (`always_iff`).
* `runFrom_unless`: a predicate that every step keeps or discharges holds at the
  end of a run, or some step of the run discharged it.
* `Sim`: one machine's steps are runs of another one; `Sim.run` maps whole runs.
* `Lockstep`: a relation that two machines keep, step by step.
-/
namespace Relacon.Core

structure Machine (σ ε : Type) where
  init : σ
  step : σ → ε → σ

namespace Machine
variable {σ ε β : Type} (M : Machine σ ε)

def runFrom (s : σ) (evs : List ε) : σ := evs.foldl M.step s

def run (evs : List ε) : σ := M.runFrom M.init evs

@[simp] theorem runFrom_nil (s : σ) : M.runFrom s [] = s := rfl

@[simp] theorem runFrom_cons (s : σ) (e : ε) (evs : List ε) :
    M.runFrom s (e :: evs) = M.runFrom (M.step s e) evs := rfl

theorem runFrom_append (s : σ) (a b : List ε) :
    M.runFrom s (a ++ b) = M.runFrom (M.runFrom s a) b := List.foldl_append

@[simp] theorem run_nil : M.run [] = M.init := rfl

theorem run_append (a b : List ε) : M.run (a ++ b) = M.runFrom (M.run a) b :=
  M.runFrom_append M.init a b

@[simp] theorem run_snoc (h : List ε) (e : ε) : M.run (h ++ [e]) = M.step (M.run h) e :=
  M.run_append h [e]

def Reachable (s : σ) : Prop := ∃ evs, M.run evs = s

theorem reachable_run (evs : List ε) : M.Reachable (M.run evs) := ⟨evs, rfl⟩

/-! ## Invariants -/

structure Inductive (I : σ → Prop) : Prop where
  init : I M.init
  step : ∀ s e, I s → I (M.step s e)

variable {M}

theorem Inductive.runFrom {I : σ → Prop} (hI : M.Inductive I) (evs : List ε) :
    ∀ s, I s → I (M.runFrom s evs) := by
  induction evs with
  | nil => exact fun s h => h
  | cons e evs ih => exact fun s h => ih _ (hI.step s e h)

theorem Inductive.run {I : σ → Prop} (hI : M.Inductive I) (evs : List ε) : I (M.run evs) :=
  hI.runFrom evs M.init hI.init

theorem Inductive.reachable {I : σ → Prop} (hI : M.Inductive I) {s : σ} (h : M.Reachable s) :
    I s := by
  obtain ⟨evs, rfl⟩ := h
  exact hI.run evs

/-- `J` survives every step that is not a `Q`. -/
theorem runFrom_unless {J : σ → Prop} {Q : σ → ε → Prop} (evs : List ε)
    (h : ∀ s, ∀ e ∈ evs, J s → J (M.step s e) ∨ Q s e) (s : σ) (hs : J s) :
    J (M.runFrom s evs) ∨ ∃ pre e post, evs = pre ++ e :: post ∧ Q (M.runFrom s pre) e := by
  induction evs generalizing s with
  | nil => exact .inl hs
  | cons e evs ih =>
    rcases h s e (by simp) hs with hJ | hQ
    · rcases ih (fun s x hx => h s x (by simp [hx])) _ hJ with hend | ⟨pre, x, post, rfl, hx⟩
      · exact .inl hend
      · exact .inr ⟨e :: pre, x, post, rfl, hx⟩
    · exact .inr ⟨[], e, evs, rfl, hQ⟩

/-! ## History variables -/

variable (M)

/-- The value after a run of a variable that starts at `b` and is updated by
`g` at every step, from its old value, the state before the step and the event. -/
def ghost (g : β → σ → ε → β) (b : β) (evs : List ε) : β :=
  (evs.foldl (fun p e => (M.step p.1 e, g p.2 p.1 e)) (M.init, b)).2

@[simp] theorem ghost_nil (g : β → σ → ε → β) (b : β) : M.ghost g b [] = b := rfl

theorem ghost_fst (g : β → σ → ε → β) (b : β) (evs : List ε) :
    (evs.foldl (fun p e => (M.step p.1 e, g p.2 p.1 e)) (M.init, b)).1 = M.run evs := by
  induction evs using List.reverseRecOn with
  | nil => rfl
  | append_singleton h e ih => rw [List.foldl_append, M.run_snoc, ← ih]; rfl

@[simp] theorem ghost_snoc (g : β → σ → ε → β) (b : β) (h : List ε) (e : ε) :
    M.ghost g b (h ++ [e]) = g (M.ghost g b h) (M.run h) e := by
  rw [ghost, List.foldl_append, ← M.ghost_fst g b h]; rfl

/-- The value `f` reported at the most recent step that reported one. -/
def latest (f : σ → ε → Option β) : List ε → Option β :=
  M.ghost (fun acc s e => (f s e).or acc) none

@[simp] theorem latest_nil (f : σ → ε → Option β) : M.latest f [] = none := rfl

@[simp] theorem latest_snoc (f : σ → ε → Option β) (h : List ε) (e : ε) :
    M.latest f (h ++ [e]) = (f (M.run h) e).or (M.latest f h) := M.ghost_snoc _ _ h e

/-- An observation that every step either sets, through `k`, or leaves is what was set last. -/
theorem latest_getD_map {γ : Type} {f : σ → ε → Option β} {g : σ → γ} {k : β → γ} {b : β}
    (h0 : g M.init = k b) (h : ∀ s e, g (M.step s e) = ((f s e).map k).getD (g s))
    (evs : List ε) : g (M.run evs) = k ((M.latest f evs).getD b) := by
  induction evs using List.reverseRecOn with
  | nil => exact h0
  | append_singleton hist e ih =>
    rw [M.run_snoc, M.latest_snoc, h, ih]
    cases f (M.run hist) e <;> rfl

theorem latest_getD {f : σ → ε → Option β} {g : σ → β}
    (h : ∀ s e, g (M.step s e) = (f s e).getD (g s)) (evs : List ε) :
    g (M.run evs) = (M.latest f evs).getD (g M.init) :=
  M.latest_getD_map (g := g) (k := id) rfl (fun s e => by rw [h, Option.map_id, id]) evs

/-- The sum of what `f` reported at every step. -/
def total (f : σ → ε → Nat) : List ε → Nat :=
  M.ghost (fun acc s e => acc + f s e) 0

@[simp] theorem total_nil (f : σ → ε → Nat) : M.total f [] = 0 := rfl

@[simp] theorem total_snoc (f : σ → ε → Nat) (h : List ε) (e : ε) :
    M.total f (h ++ [e]) = M.total f h + f (M.run h) e := M.ghost_snoc _ _ h e

/-! ## Invariants over the history -/

/-- `I` ties the history to the state in every run admitted by `Ok`. -/
structure HistInductive (Ok : List ε → Prop) (I : List ε → σ → Prop) : Prop where
  ok : ∀ h e, Ok (h ++ [e]) → Ok h
  init : I [] M.init
  step : ∀ h e, Ok (h ++ [e]) → I h (M.run h) → I (h ++ [e]) (M.step (M.run h) e)

variable {M}

theorem HistInductive.run {Ok : List ε → Prop} {I : List ε → σ → Prop}
    (hI : M.HistInductive Ok I) (evs : List ε) (hok : Ok evs) : I evs (M.run evs) := by
  induction evs using List.reverseRecOn with
  | nil => exact hI.init
  | append_singleton h e ih =>
    rw [M.run_snoc]
    exact hI.step h e hok (ih (hI.ok h e hok))

/-! ## Properties of every step -/

variable (M)

/-- `P` holds of every step of the run, given the state before it. -/
def Always (P : σ → ε → Prop) (evs : List ε) : Prop :=
  ∀ pre e post, evs = pre ++ e :: post → P (M.run pre) e

variable {M}

@[simp] theorem always_nil (P : σ → ε → Prop) : M.Always P [] := by
  intro pre e post h
  simp at h

theorem always_append {P : σ → ε → Prop} {a b : List ε} (hP : M.Always P (a ++ b)) :
    M.Always P a :=
  fun pre e post he => hP pre e (post ++ b) (by simp [he])

@[simp] theorem always_snoc {P : σ → ε → Prop} {h : List ε} {e : ε} :
    M.Always P (h ++ [e]) ↔ M.Always P h ∧ P (M.run h) e := by
  refine ⟨fun hP => ?_, fun h => ?_⟩
  · exact ⟨M.always_append hP, hP h e [] rfl⟩
  · obtain ⟨hP, hlast⟩ := h
    intro pre e' post he
    rcases List.eq_nil_or_concat post with rfl | ⟨post', x, rfl⟩
    · obtain ⟨rfl, hx⟩ := List.append_inj' he rfl
      cases hx
      exact hlast
    · rw [List.concat_eq_append, ← List.cons_append, ← List.append_assoc] at he
      exact hP pre e' post' (List.append_inj' he rfl).1

def AlwaysFrom (M : Machine σ ε) (P : σ → ε → Prop) (s : σ) : List ε → Prop
  | [] => True
  | e :: evs => P s e ∧ M.AlwaysFrom P (M.step s e) evs

theorem always_append_iff {P : σ → ε → Prop} {a b : List ε} :
    M.Always P (a ++ b) ↔ M.Always P a ∧ M.AlwaysFrom P (M.run a) b := by
  induction b generalizing a with
  | nil => simp [AlwaysFrom]
  | cons e b ih => rw [List.append_cons, ih, always_snoc, run_snoc, AlwaysFrom, and_assoc]

instance decidableAlwaysFrom (P : σ → ε → Prop) [∀ s e, Decidable (P s e)] (s : σ) :
    (evs : List ε) → Decidable (M.AlwaysFrom P s evs)
  | [] => .isTrue trivial
  | e :: evs =>
    have := decidableAlwaysFrom P (M.step s e) evs
    inferInstanceAs (Decidable (P s e ∧ M.AlwaysFrom P (M.step s e) evs))

theorem always_iff_alwaysFrom {P : σ → ε → Prop} {evs : List ε} :
    M.AlwaysFrom P M.init evs ↔ M.Always P evs := by
  rw [← List.nil_append evs, always_append_iff]
  simp

instance decidableAlways (P : σ → ε → Prop) [∀ s e, Decidable (P s e)] (evs : List ε) :
    Decidable (M.Always P evs) := decidable_of_iff _ always_iff_alwaysFrom

theorem always_mono {P Q : σ → ε → Prop} {I : σ → Prop} (hI : M.Inductive I)
    (h : ∀ s e, I s → P s e → Q s e) {evs : List ε} (hP : M.Always P evs) : M.Always Q evs :=
  fun pre e post he => h _ e (hI.run pre) (hP pre e post he)

theorem always_iff {P Q : σ → ε → Prop} {I : σ → Prop} (hI : M.Inductive I)
    (h : ∀ s e, I s → (P s e ↔ Q s e)) (evs : List ε) : M.Always P evs ↔ M.Always Q evs :=
  ⟨always_mono hI fun s e hs => (h s e hs).mp, always_mono hI fun s e hs => (h s e hs).mpr⟩

/-! ## Simulation -/

/-- Every step of `M` is, through `abs`, the run of `N` over the events `evs`
gives for it. -/
structure Sim {τ δ : Type} (M : Machine σ ε) (N : Machine τ δ) (abs : σ → τ)
    (evs : σ → ε → List δ) : Prop where
  init : abs M.init = N.init
  step : ∀ s e, abs (M.step s e) = N.runFrom (abs s) (evs s e)

/-- The `N`-events of a whole run of `M`. -/
def simEvents {τ : Type} (M : Machine σ ε) (evs : σ → ε → List τ) : List ε → List τ :=
  M.ghost (fun acc s e => acc ++ evs s e) []

@[simp] theorem simEvents_nil {τ : Type} (evs : σ → ε → List τ) : M.simEvents evs [] = [] := rfl

@[simp] theorem simEvents_snoc {τ : Type} (evs : σ → ε → List τ) (h : List ε) (e : ε) :
    M.simEvents evs (h ++ [e]) = M.simEvents evs h ++ evs (M.run h) e := M.ghost_snoc _ _ h e

theorem Sim.run {τ δ : Type} {N : Machine τ δ} {abs : σ → τ} {evs : σ → ε → List δ}
    (hs : Sim M N abs evs) (l : List ε) : abs (M.run l) = N.run (M.simEvents evs l) := by
  induction l using List.reverseRecOn with
  | nil => exact hs.init
  | append_singleton h e ih =>
    rw [M.run_snoc, hs.step, ih, simEvents_snoc, N.run_append]

/-- Each step of `M` and its counterpart in `N` keep the states related. -/
structure Lockstep {τ δ : Type} (M : Machine σ ε) (N : Machine τ δ) (f : ε → δ)
    (R : σ → τ → Prop) : Prop where
  init : R M.init N.init
  step : ∀ s t e, R s t → R (M.step s e) (N.step t (f e))

theorem Lockstep.run {τ δ : Type} {N : Machine τ δ} {f : ε → δ} {R : σ → τ → Prop}
    (hl : Lockstep M N f R) (evs : List ε) : R (M.run evs) (N.run (evs.map f)) := by
  induction evs using List.reverseRecOn with
  | nil => exact hl.init
  | append_singleton h e ih =>
    rw [List.map_append, List.map_singleton, M.run_snoc, N.run_snoc]
    exact hl.step _ _ e ih

end Machine

end Relacon.Core
