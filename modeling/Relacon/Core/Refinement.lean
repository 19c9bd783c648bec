import Relacon.Core.Machine

/-!
# Refinement: two machines that show the same

`trace out` lists what the steps of a run show, oldest first. `Refines` is
refinement under an assumption on the runs: as long as the history is
admissible, each step and its counterpart keep the states related, where the
relation may look at the history, and show the same. `Refines.run` carries it to
whole runs.

`batched g` takes the steps of a machine in batches; a run of it is one of the
machine itself (`batched_run`), with the batches put end to end.
-/
namespace Relacon.Core.Machine
variable {σ τ ε δ ι ω : Type}

/-! ## What a run shows -/

def trace (M : Machine σ ε) (out : σ → ε → ω) : List ε → List ω :=
  M.ghost (fun acc s e => acc ++ [out s e]) []

@[simp] theorem trace_nil (M : Machine σ ε) (out : σ → ε → ω) : M.trace out [] = [] := rfl

@[simp] theorem trace_snoc (M : Machine σ ε) (out : σ → ε → ω) (h : List ε) (e : ε) :
    M.trace out (h ++ [e]) = M.trace out h ++ [out (M.run h) e] := M.ghost_snoc _ _ h e

/-- What the steps from `s` on show. -/
def traceFrom (M : Machine σ ε) (out : σ → ε → ω) (s : σ) : List ε → List ω
  | [] => []
  | e :: evs => out s e :: M.traceFrom out (M.step s e) evs

theorem trace_append (M : Machine σ ε) (out : σ → ε → ω) (a b : List ε) :
    M.trace out (a ++ b) = M.trace out a ++ M.traceFrom out (M.run a) b := by
  induction b generalizing a with
  | nil => simp [traceFrom]
  | cons e b ih =>
    rw [List.append_cons, ih, trace_snoc, run_snoc, List.append_assoc]
    rfl

theorem trace_map {ω' : Type} (M : Machine σ ε) (out : σ → ε → ω) (g : ω → ω') (evs : List ε) :
    M.trace (fun s e => g (out s e)) evs = (M.trace out evs).map g := by
  induction evs using List.reverseRecOn with
  | nil => rfl
  | append_singleton h e ih => rw [trace_snoc, trace_snoc, ih, List.map_append, List.map_singleton]

/-! ## Refinement -/

structure Refines (M : Machine σ ε) (N : Machine τ δ) (f : ε → δ) (Ok : List ε → Prop)
    (R : List ε → σ → τ → Prop) (out : σ → ε → ω) (out' : τ → δ → ω) : Prop where
  ok : ∀ h e, Ok (h ++ [e]) → Ok h
  init : R [] M.init N.init
  step : ∀ h e t, Ok (h ++ [e]) → R h (M.run h) t →
    R (h ++ [e]) (M.step (M.run h) e) (N.step t (f e)) ∧ out (M.run h) e = out' t (f e)

theorem Refines.run {M : Machine σ ε} {N : Machine τ δ} {f : ε → δ} {Ok : List ε → Prop}
    {R : List ε → σ → τ → Prop} {out : σ → ε → ω} {out' : τ → δ → ω}
    (hr : Refines M N f Ok R out out') (evs : List ε) (hok : Ok evs) :
    R evs (M.run evs) (N.run (evs.map f)) ∧ M.trace out evs = N.trace out' (evs.map f) := by
  induction evs using List.reverseRecOn with
  | nil => exact ⟨hr.init, rfl⟩
  | append_singleton h e ih =>
    obtain ⟨hrel, htrace⟩ := ih (hr.ok h e hok)
    obtain ⟨hnext, hout⟩ := hr.step h e _ hok hrel
    rw [List.map_append, List.map_singleton, run_snoc, run_snoc, trace_snoc, trace_snoc, htrace, hout]
    exact ⟨hnext, rfl⟩

/-! ## Batches -/

def batched (M : Machine σ ε) (g : ι → List ε) : Machine σ ι := ⟨M.init, fun s i => M.runFrom s (g i)⟩

theorem batched_run (M : Machine σ ε) (g : ι → List ε) (is : List ι) :
    (M.batched g).run is = M.run (is.flatMap g) := by
  induction is using List.reverseRecOn with
  | nil => rfl
  | append_singleton h i ih =>
    rw [run_snoc, ih, List.flatMap_append, run_append]
    simp [batched]

theorem batched_trace (M : Machine σ ε) (g : ι → List ε) (out : σ → ε → ω) (is : List ι) :
    ((M.batched g).trace (fun s i => M.traceFrom out s (g i)) is).flatten =
      M.trace out (is.flatMap g) := by
  induction is using List.reverseRecOn with
  | nil => rfl
  | append_singleton h i ih =>
    rw [trace_snoc, List.flatten_append, ih, batched_run, List.flatMap_append, trace_append]
    simp

end Relacon.Core.Machine
