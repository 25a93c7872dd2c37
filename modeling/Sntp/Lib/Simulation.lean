import Sntp.Lib.Watch

/-!
# Two computations side by side

`Matches x s y t S` compares `x` from `s` with `y` from `t`, two watched
computations over states of their own: they end alike, with the same value or
both still running, and `S` relates the states they leave. The relation may
depend on the value, so a simulation can say where it ends.

There is a rule for each way to build a computation, each for both sides at once.
A step that only one side takes is run away (`of_run`).
-/

namespace Watch

variable {σ τ α β : Type}

/-- `x` from `s` and `y` from `t` end alike, and in states that `S` relates. -/
def Matches (x : Watch σ α) (s : σ) (y : Watch τ α) (t : τ) (S : Option α → σ → τ → Prop) : Prop :=
  (x.run s).1 = (y.run t).1 ∧ S (x.run s).1 (x.run s).2 (y.run t).2

/-- What the bodies of two loops are to leave: `I` where they go round again, and
`S` where they do not. -/
def Again (I : σ → τ → Prop) (S : Option α → σ → τ → Prop) : Option (Option α) → σ → τ → Prop
  | none => S none
  | some none => I
  | some (some a) => S (some a)

namespace Matches

variable {s s' : σ} {t t' : τ} {x p : Watch σ α} {y q : Watch τ α} {S : Option α → σ → τ → Prop}

theorem pure {a : α} (h : S (some a) s t) : Matches (Pure.pure a) s (Pure.pure a) t S := ⟨rfl, h⟩

theorem of_run (hx : x.run s = p.run s') (hy : y.run t = q.run t') (h : Matches p s' q t' S) :
    Matches x s y t S := by
  unfold Matches
  rw [hx, hy]
  exact h

/-- What there is to know of two computations that match. -/
theorem ends (h : Matches x s y t S) :
    ∃ a s' t', x.run s = (a, s') ∧ y.run t = (a, t') ∧ S a s' t' := by
  obtain ⟨hvalue, hstates⟩ := h
  exact ⟨_, _, _, rfl, Prod.ext hvalue.symm rfl, hstates⟩

theorem bind {f : α → Watch σ β} {g : α → Watch τ β} {T : Option β → σ → τ → Prop}
    (hx : Matches x s y t S) (hf : ∀ a s' t', S (some a) s' t' → Matches (f a) s' (g a) t' T)
    (hstop : ∀ s' t', S none s' t' → T none s' t') : Matches (x >>= f) s (y >>= g) t T := by
  obtain ⟨a, s', t', hleft, hright, hstates⟩ := hx.ends
  cases a with
  | none =>
    unfold Matches
    rw [run_bind_none hleft, run_bind_none hright]
    exact ⟨rfl, hstop s' t' hstates⟩
  | some a => exact .of_run (run_bind_some hleft) (run_bind_some hright) (hf a s' t' hstates)

/-- The loop rule: bodies that match keep `I` for as long as they go round. -/
theorem retry {body : Watch σ (Option α)} {body' : Watch τ (Option α)} {I : σ → τ → Prop}
    (hbody : ∀ s t, I s t → Matches body s body' t (Again I S)) (hstop : ∀ s t, I s t → S none s t)
    (n : ℕ) (h : I s t) : Matches (retry body n) s (retry body' n) t S := by
  induction n generalizing s t with
  | zero => exact ⟨rfl, hstop s t h⟩
  | succ n ih =>
    refine (hbody s t h).bind ?_ ?_
    · intro a s' t' hend
      cases a with
      | none => exact ih hend
      | some a => exact .pure hend
    · intro s' t' hend
      exact hend

end Matches

end Watch
