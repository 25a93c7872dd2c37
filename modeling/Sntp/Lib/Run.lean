import Mathlib.Data.List.Basic

/-!
# Labelled runs

A labelled transition system is a step relation `σ → ι → σ → Prop`; a *run* is
a finite chain of its steps, remembered as the list of labels it took. This
file is the whole theory the developments above it use: runs compose and
split at any label (`Run.append`, `Run.split`), and there is one induction rule
for each kind of fact about a run:

- `Run.inv`: what every step keeps holds at the end, and `Run.guard` lets every
  step assume it;
- `Run.rel`: a preorder every step respects relates the two ends;
- `Run.history`: a relation between the labels taken so far and the state;
- `Run.map`: a step by step simulation is a simulation of runs.
-/

namespace Transition

variable {σ ι : Type*} {step : σ → ι → σ → Prop}

/-- `Run step s ls t`: the steps labelled `ls`, in order, lead from `s` to `t`. -/
inductive Run (step : σ → ι → σ → Prop) : σ → List ι → σ → Prop
  | nil (s : σ) : Run step s [] s
  | cons {s t u : σ} {l : ι} {ls : List ι} :
      step s l t → Run step t ls u → Run step s (l :: ls) u

namespace Run

theorem single {s t : σ} {l : ι} (h : step s l t) : Run step s [l] t :=
  .cons h (.nil t)

theorem of_single {s t : σ} {l : ι} (h : Run step s [l] t) : step s l t := by
  cases h with
  | cons hstep hnil =>
    cases hnil
    exact hstep

theorem append {s t u : σ} {ls ms : List ι} (h₁ : Run step s ls t)
    (h₂ : Run step t ms u) : Run step s (ls ++ ms) u := by
  induction h₁ with
  | nil s => exact h₂
  | cons hstep _ ih => exact .cons hstep (ih h₂)

/-- A run over `ls ++ ms` passes through a state between the two. -/
theorem split {s u : σ} {ls ms : List ι} (h : Run step s (ls ++ ms) u) :
    ∃ t, Run step s ls t ∧ Run step t ms u := by
  induction ls generalizing s with
  | nil => exact ⟨s, .nil s, h⟩
  | cons l ls ih =>
    cases h with
    | cons hstep hrest =>
      obtain ⟨t, h₁, h₂⟩ := ih hrest
      exact ⟨t, .cons hstep h₁, h₂⟩

/-- A run over `ls ++ l :: ms` takes the step `l` between its two halves. -/
theorem split_cons {s u : σ} {ls ms : List ι} {l : ι} (h : Run step s (ls ++ l :: ms) u) :
    ∃ t t', Run step s ls t ∧ step t l t' ∧ Run step t' ms u := by
  obtain ⟨t, h₁, h₂⟩ := h.split
  cases h₂ with
  | cons hstep hrest => exact ⟨t, _, h₁, hstep, hrest⟩

/-- Every label of a run was taken from a state some prefix of the run reached. -/
theorem of_mem {s u : σ} {ls : List ι} {l : ι} (h : Run step s ls u) (hl : l ∈ ls) :
    ∃ pre post t t', ls = pre ++ l :: post ∧ Run step s pre t ∧ step t l t' ∧
      Run step t' post u := by
  obtain ⟨pre, post, rfl⟩ := List.append_of_mem hl
  obtain ⟨t, t', h₁, hstep, h₂⟩ := h.split_cons
  exact ⟨pre, post, t, t', rfl, h₁, hstep, h₂⟩

/-- The invariant rule. -/
theorem inv {I : σ → Prop} (hkeep : ∀ {s l t}, I s → step s l t → I t)
    {s t : σ} {ls : List ι} (h : Run step s ls t) (h₀ : I s) : I t := by
  induction h with
  | nil s => exact h₀
  | cons hstep _ ih => exact ih (hkeep h₀ hstep)

/-- An invariant guards every step of the run, so the rules below may assume it. -/
theorem guard {I : σ → Prop} (hkeep : ∀ {s l t}, I s → step s l t → I t)
    {s t : σ} {ls : List ι} (h : Run step s ls t) (h₀ : I s) :
    Run (fun s l t => I s ∧ step s l t) s ls t := by
  induction h with
  | nil s => exact .nil s
  | cons hstep _ ih => exact .cons ⟨h₀, hstep⟩ (ih (hkeep h₀ hstep))

/-- The invariant rule for runs whose labels all satisfy `P`. -/
theorem inv_of_forall {I : σ → Prop} {P : ι → Prop}
    (hkeep : ∀ {s l t}, I s → P l → step s l t → I t)
    {s t : σ} {ls : List ι} (h : Run step s ls t) (hP : ∀ l ∈ ls, P l) (h₀ : I s) : I t := by
  induction h with
  | nil s => exact h₀
  | cons hstep _ ih =>
    rw [List.forall_mem_cons] at hP
    exact ih hP.2 (hkeep h₀ hP.1 hstep)

/-- A reflexive and transitive relation that every step whose label satisfies
`P` respects relates the two ends of a run of such steps. -/
theorem rel {R : σ → σ → Prop} {P : ι → Prop} (hrefl : ∀ s, R s s)
    (htrans : ∀ {s t u}, R s t → R t u → R s u)
    (hstep : ∀ {s l t}, P l → step s l t → R s t)
    {s t : σ} {ls : List ι} (h : Run step s ls t) (hP : ∀ l ∈ ls, P l) : R s t := by
  induction h with
  | nil s => exact hrefl s
  | cons hs _ ih =>
    rw [List.forall_mem_cons] at hP
    exact htrans (hstep hP.1 hs) (ih hP.2)

/-- The history rule: a relation between the labels taken so far and the state
reached, true of no labels and kept by every step. -/
theorem history {J : List ι → σ → Prop}
    (hkeep : ∀ {ls s l t}, J ls s → step s l t → J (ls ++ [l]) t)
    {s t : σ} {ls : List ι} (h : Run step s ls t) (h₀ : J [] s) : J ls t := by
  have gen : ∀ {s t : σ} {ls ms : List ι}, Run step s ls t → J ms s → J (ms ++ ls) t := by
    intro s t ls ms h
    induction h generalizing ms with
    | nil s => intro hJ; rwa [List.append_nil]
    | cons hstep _ ih =>
      intro hJ
      rw [List.append_cons]
      exact ih (hkeep hJ hstep)
  exact gen h h₀

/-- The simulation rule: where a step of one system is a step of another, seen
through `f` and `g`, so is a run. -/
theorem map {σ' ι' : Type*} {step' : σ' → ι' → σ' → Prop} (f : σ → σ') (g : ι → ι')
    (hsim : ∀ {s l t}, step s l t → step' (f s) (g l) (f t)) {s t : σ} {ls : List ι}
    (h : Run step s ls t) : Run step' (f s) (ls.map g) (f t) := by
  induction h with
  | nil s => exact .nil (f s)
  | cons hstep _ ih => exact .cons (hsim hstep) ih

/-- What all labels of a run satisfy, every step of it may assume. -/
theorem of_forall {P : ι → Prop} {s t : σ} {ls : List ι} (h : Run step s ls t)
    (hP : ∀ l ∈ ls, P l) : Run (fun s l t => P l ∧ step s l t) s ls t := by
  induction h with
  | nil s => exact .nil s
  | cons hstep _ ih =>
    rw [List.forall_mem_cons] at hP
    exact .cons ⟨hP.1, hstep⟩ (ih hP.2)

/-- A run over blocks of labels is a run whose steps are the runs of the blocks. -/
theorem blocks {κ : Type*} {f : κ → List ι} {s t : σ} {bs : List κ}
    (h : Run step s (bs.flatMap f) t) : Run (fun s b t => Run step s (f b) t) s bs t := by
  induction bs generalizing s with
  | nil =>
    cases h
    exact .nil _
  | cons b bs ih =>
    rw [List.flatMap_cons] at h
    obtain ⟨u, hb, hrest⟩ := h.split
    exact .cons hb (ih hrest)

end Run

end Transition
