import Sntp.Lib.Run

/-!
# Systems that do exactly what a machine does

`Exact` says that a system, watched through a view of its states and of its labels,
takes the steps of a machine and no others: what it does the machine can do
(`forward`), and what the machine can do it does, under suitable circumstances
(`backward`). Then the same is true of whole runs (`Exact.run_iff`), so whatever
is settled about the machine is settled about the system, also that something can
happen.
-/

namespace Transition

variable {σ ι τ κ : Type*} {step : σ → ι → σ → Prop} {spec : τ → κ → τ → Prop}
  {I : σ → Prop} {view : σ → τ} {label : ι → Option κ}

/-- In the states of `I`, the steps with a label are those of the machine `spec`. -/
structure Exact (step : σ → ι → σ → Prop) (spec : τ → κ → τ → Prop) (I : σ → Prop)
    (view : σ → τ) (label : ι → Option κ) : Prop where
  keeps : ∀ {s l t}, I s → step s l t → I t
  forward : ∀ {s l t k}, I s → step s l t → label l = some k → spec (view s) k (view t)
  backward : ∀ {s k v}, I s → spec (view s) k v →
    ∃ l t, step s l t ∧ label l = some k ∧ view t = v

namespace Exact

/-- The simulation. -/
theorem run_forward (h : Exact step spec I view label) {s t : σ} {ls : List ι} {ks : List κ}
    (hs : I s) (hrun : Run step s ls t) (hls : ls.map label = ks.map some) :
    Run spec (view s) ks (view t) := by
  induction hrun generalizing ks with
  | nil s =>
    rw [List.map_nil, eq_comm, List.map_eq_nil_iff] at hls
    rw [hls]
    exact .nil _
  | cons hstep _ ih =>
    cases ks with
    | nil => cases hls
    | cons k ks =>
      obtain ⟨hl, hls⟩ := List.cons.inj hls
      exact .cons (h.forward hs hstep hl) (ih (h.keeps hs hstep) hls)

/-- The other way: every run of the machine can be made. -/
theorem run_backward (h : Exact step spec I view label) {s : σ} {ks : List κ} {v : τ} (hs : I s)
    (hrun : Run spec (view s) ks v) :
    ∃ ls t, Run step s ls t ∧ ls.map label = ks.map some ∧ view t = v := by
  generalize hu : view s = u at hrun
  induction hrun generalizing s with
  | nil u => exact ⟨[], s, .nil s, rfl, hu⟩
  | cons hstep _ ih =>
    subst hu
    obtain ⟨l, t, hl, hlabel, ht⟩ := h.backward hs hstep
    obtain ⟨ls, w, hrun, hls, hw⟩ := ih (h.keeps hs hl) ht
    refine ⟨l :: ls, w, .cons hl hrun, ?_, hw⟩
    rw [List.map_cons, List.map_cons, hlabel, hls]

/-- **The runs of the system are the runs of the machine.** -/
theorem run_iff (h : Exact step spec I view label) {s : σ} (hs : I s) {ks : List κ} {v : τ} :
    (∃ ls t, Run step s ls t ∧ ls.map label = ks.map some ∧ view t = v) ↔
      Run spec (view s) ks v := by
  constructor
  · intro ⟨ls, t, hrun, hls, ht⟩
    exact ht ▸ h.run_forward hs hrun hls
  · exact h.run_backward hs

end Exact

end Transition
