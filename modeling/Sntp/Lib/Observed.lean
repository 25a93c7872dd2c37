import Sntp.Lib.Run

/-!
# Runs with moves nobody reports

A system may move on its own between the steps an observer sees. Its step
relation is labelled by `Option ι`, and `none` is such a move. `Observed` keeps
the labels of the visible steps only, so what one party reports can be laid
against what a whole system does, however the two interleave:

- `Observed.split` and `Observed.split_cons` cut a run at what was seen;
- `Observed.inv`, `Observed.rel` are the rules of `Run`, for both kinds of step;
- `Observed.run_of` forgets a system down to one of its parts.
-/

namespace Transition

variable {σ ι : Type*} {step : σ → Option ι → σ → Prop}

/-- `Observed step s es t`: moves from `s` to `t`, of which those seen were `es`. -/
inductive Observed (step : σ → Option ι → σ → Prop) : σ → List ι → σ → Prop
  | nil (s : σ) : Observed step s [] s
  | silent {s t u : σ} {es : List ι} :
      step s none t → Observed step t es u → Observed step s es u
  | seen {s t u : σ} {e : ι} {es : List ι} :
      step s (some e) t → Observed step t es u → Observed step s (e :: es) u

namespace Observed

theorem single {s t : σ} {e : ι} (h : step s (some e) t) : Observed step s [e] t :=
  .seen h (.nil t)

theorem append {s t u : σ} {es fs : List ι} (h₁ : Observed step s es t)
    (h₂ : Observed step t fs u) : Observed step s (es ++ fs) u := by
  induction h₁ with
  | nil s => exact h₂
  | silent hstep _ ih => exact .silent hstep (ih h₂)
  | seen hstep _ ih => exact .seen hstep (ih h₂)

/-- A run seen to do `es ++ fs` passes through a state between the two. -/
theorem split {s u : σ} {es fs : List ι} (h : Observed step s (es ++ fs) u) :
    ∃ t, Observed step s es t ∧ Observed step t fs u := by
  generalize hes : es ++ fs = all at h
  induction h generalizing es with
  | nil s =>
    obtain ⟨rfl, rfl⟩ := List.append_eq_nil_iff.mp hes
    exact ⟨s, .nil s, .nil s⟩
  | silent hstep _ ih =>
    obtain ⟨t, h₁, h₂⟩ := ih hes
    exact ⟨t, .silent hstep h₁, h₂⟩
  | @seen s _ u e all hstep hrest ih =>
    cases es with
    | nil =>
      rw [List.nil_append] at hes
      subst hes
      exact ⟨s, .nil s, .seen hstep hrest⟩
    | cons f es =>
      obtain ⟨rfl, hall⟩ := List.cons.inj hes
      obtain ⟨t, h₁, h₂⟩ := ih hall
      exact ⟨t, .seen hstep h₁, h₂⟩

/-- A run seen to do `e` first moves on its own until it does. -/
theorem uncons {s u : σ} {e : ι} {es : List ι} (h : Observed step s (e :: es) u) :
    ∃ t t', Observed step s [] t ∧ step t (some e) t' ∧ Observed step t' es u := by
  generalize hes : e :: es = all at h
  induction h with
  | nil s => cases hes
  | silent hstep _ ih =>
    obtain ⟨t, t', h₁, he, h₂⟩ := ih hes
    exact ⟨t, t', .silent hstep h₁, he, h₂⟩
  | @seen s t _ _ _ hstep hrest _ =>
    obtain ⟨rfl, rfl⟩ := List.cons.inj hes
    exact ⟨s, t, .nil s, hstep, hrest⟩

/-- A run seen to do `es ++ e :: fs` takes the step `e` between its two halves. -/
theorem split_cons {s u : σ} {es fs : List ι} {e : ι}
    (h : Observed step s (es ++ e :: fs) u) :
    ∃ t t', Observed step s es t ∧ step t (some e) t' ∧ Observed step t' fs u := by
  obtain ⟨m, h₁, h₂⟩ := h.split
  obtain ⟨t, t', hwait, hstep, hrest⟩ := h₂.uncons
  refine ⟨t, t', ?_, hstep, hrest⟩
  rw [← List.append_nil es]
  exact h₁.append hwait

/-- The invariant rule. -/
theorem inv {I : σ → Prop} (hkeep : ∀ {s l t}, I s → step s l t → I t) {s t : σ} {es : List ι}
    (h : Observed step s es t) (h₀ : I s) : I t := by
  induction h with
  | nil s => exact h₀
  | silent hstep _ ih => exact ih (hkeep h₀ hstep)
  | seen hstep _ ih => exact ih (hkeep h₀ hstep)

/-- A reflexive and transitive relation that silent steps respect, and those seen
whose label satisfies `P`, relates the two ends of a run of such steps. -/
theorem rel {R : σ → σ → Prop} {P : ι → Prop} (hrefl : ∀ s, R s s)
    (htrans : ∀ {s t u}, R s t → R t u → R s u) (hsilent : ∀ {s t}, step s none t → R s t)
    (hseen : ∀ {s e t}, P e → step s (some e) t → R s t) {s t : σ} {es : List ι}
    (h : Observed step s es t) (hP : ∀ e ∈ es, P e) : R s t := by
  induction h with
  | nil s => exact hrefl s
  | silent hstep _ ih => exact htrans (hsilent hstep) (ih hP)
  | seen hstep _ ih =>
    rw [List.forall_mem_cons] at hP
    exact htrans (hseen hP.1 hstep) (ih hP.2)

/-- The history rule: a relation between what was seen so far and the state, kept
by every step. -/
theorem history {J : List ι → σ → Prop} (hsilent : ∀ {es s t}, J es s → step s none t → J es t)
    (hseen : ∀ {es s e t}, J es s → step s (some e) t → J (es ++ [e]) t) {s t : σ} {es : List ι}
    (h : Observed step s es t) (h₀ : J [] s) : J es t := by
  have gen : ∀ {s t : σ} {es before : List ι}, Observed step s es t → J before s →
      J (before ++ es) t := by
    intro s t es before h
    induction h generalizing before with
    | nil s => intro hJ; rwa [List.append_nil]
    | silent hstep _ ih => intro hJ; exact ih (hsilent hJ hstep)
    | seen hstep _ ih =>
      intro hJ
      rw [List.append_cons]
      exact ih (hseen hJ hstep)
  exact gen h h₀

/-- What silent steps do not touch runs as if they were not there. -/
theorem run_of {σ' : Type*} {step' : σ' → ι → σ' → Prop} (f : σ → σ')
    (hsilent : ∀ {s t}, step s none t → f t = f s)
    (hseen : ∀ {s e t}, step s (some e) t → step' (f s) e (f t)) {s t : σ} {es : List ι}
    (h : Observed step s es t) : Run step' (f s) es (f t) := by
  induction h with
  | nil s => exact .nil (f s)
  | silent hstep _ ih => exact hsilent hstep ▸ ih
  | seen hstep _ ih => exact .cons (hseen hstep) ih

end Observed

end Transition
