import Mathlib.Data.List.ReduceOption
import Relacon.Core.Refinement

/-!
# Steps that do nothing, and parts of a machine

`run_filter_iff`: leaving steps out of a run changes nothing if and only if they did
nothing in it. `logged` is a machine with a log of what its steps put out, so that
the same holds of the output.

`Part` is a part of a machine that sees only some of the steps, and puts out only
its own output: two runs that look the same to it leave it the same, and it puts
out the same (`Part.isolated`).
-/
namespace Relacon.Core.Machine
variable {σ ε ω : Type} {M : Machine σ ε}

/-! ## Steps that do nothing -/

theorem run_filter_iff {keep : ε → Bool} {evs : List ε} :
    (∀ seen, seen <+: evs → M.run (seen.filter keep) = M.run seen) ↔
      M.Always (fun s e => keep e = false → M.step s e = s) evs := by
  refine ⟨fun h pre e post he hk => ?_, fun h seen hseen => ?_⟩
  · have hpre := h pre ⟨e :: post, he.symm⟩
    have hnext := h (pre ++ [e]) ⟨post, by simp [he]⟩
    rw [List.filter_append, List.filter_cons_of_neg (by simp [hk]), List.filter_nil, List.append_nil,
      hpre, run_snoc] at hnext
    exact hnext.symm
  · obtain ⟨rest, rfl⟩ := hseen
    have hidle := always_append h
    clear h
    induction seen using List.reverseRecOn with
    | nil => rfl
    | append_singleton seen e ih =>
      rw [always_snoc] at hidle
      obtain ⟨hbefore, hlast⟩ := hidle
      rw [List.filter_append, run_append, ih hbefore, run_append]
      cases hk : keep e with
      | false => simp [hk, hlast hk]
      | true => simp [hk]

/-! ## Output -/

def logged (M : Machine σ ε) (out : σ → ε → Option ω) : Machine (σ × List ω) ε :=
  ⟨(M.init, []), fun s e => (M.step s.1 e, s.2 ++ (out s.1 e).toList)⟩

@[simp] theorem logged_step (M : Machine σ ε) (out : σ → ε → Option ω) (s : σ) (log : List ω) (e : ε) :
    (M.logged out).step (s, log) e = (M.step s e, log ++ (out s e).toList) := rfl

theorem logged_run (M : Machine σ ε) (out : σ → ε → Option ω) (evs : List ε) :
    (M.logged out).run evs = (M.run evs, (M.trace out evs).reduceOption) := by
  induction evs using List.reverseRecOn with
  | nil => rfl
  | append_singleton h e ih =>
    rw [run_snoc, ih, run_snoc, trace_snoc, List.reduceOption_append, List.reduceOption_singleton]
    rfl

/-! ## Parts -/

/-- The part `abs` of `M` is the machine `N`, which sees the steps through `view`. -/
structure Part {τ δ : Type} (M : Machine σ ε) (N : Machine τ δ) (abs : σ → τ) (view : ε → Option δ)
    (out : σ → ε → Option ω) (out' : τ → δ → Option ω) : Prop where
  init : abs M.init = N.init
  step : ∀ s e, abs (M.step s e) = match view e with
    | some d => N.step (abs s) d
    | none => abs s
  out : ∀ s e, out s e = (view e).bind (out' (abs s))

section
variable {τ δ : Type} {N : Machine τ δ} {abs : σ → τ} {view : ε → Option δ}
  {out : σ → ε → Option ω} {out' : τ → δ → Option ω}

theorem Part.run (hp : Part M N abs view out out') (evs : List ε) :
    abs (M.run evs) = N.run (evs.filterMap view) ∧
      (M.trace out evs).reduceOption = (N.trace out' (evs.filterMap view)).reduceOption := by
  induction evs using List.reverseRecOn with
  | nil => exact ⟨hp.init, rfl⟩
  | append_singleton h e ih =>
    obtain ⟨hstate, hlog⟩ := ih
    rw [run_snoc, hp.step, trace_snoc, hp.out, hstate, List.filterMap_append,
      List.reduceOption_append, hlog]
    cases hv : view e with
    | none => simp [hv, List.reduceOption_singleton]
    | some d => simp [hv, List.reduceOption_append, List.reduceOption_singleton]

theorem Part.isolated (hp : Part M N abs view out out') {a b : List ε}
    (h : a.filterMap view = b.filterMap view) : abs (M.run a) = abs (M.run b) ∧
      (M.trace out a).reduceOption = (M.trace out b).reduceOption := by
  rw [(hp.run a).1, (hp.run a).2, (hp.run b).1, (hp.run b).2, h]
  exact ⟨rfl, rfl⟩

end

end Relacon.Core.Machine
