import Sntp.Lib.Run

/-!
# Watched computations

A computation over a state `σ` that may loop on the answers of its environment
is *watched* for a bounded number of rounds: it either returns a value or is
still running when the watch ends, and in both cases it leaves a state behind,
so what it did so far is not lost. `retry` is the loop `loop { .. }` of such a
computation, and `retry_rule` is its proof rule: describe one round that goes
round again and one that exits, and a watched loop is a run of the first kind
followed by the end of the watch or by one of the second kind.

Less is enough for what a computation does to one part of its state, whatever it
returns: `Keeps` has a rule for each way to build a computation.
-/

/-- A watched computation: `none` where the watch ended first. -/
def Watch (σ α : Type) : Type := σ → Option α × σ

namespace Watch

variable {σ α β : Type}

/-- The result, or `none` when it was not watched to its end, and the state reached. -/
def run (x : Watch σ α) (s : σ) : Option α × σ := x s

instance : Monad (Watch σ) where
  pure a := fun s => (some a, s)
  bind x f := fun s =>
    match x s with
    | (some a, s') => f a s'
    | (none, s') => (none, s')

/-- The watch has ended. -/
def stop : Watch σ α := fun s => (none, s)

/-- A step that always returns. -/
def step (f : σ → α × σ) : Watch σ α := fun s => (some (f s).1, (f s).2)

theorem run_bind_some {x : Watch σ α} {f : α → Watch σ β} {s s' : σ} {a : α}
    (h : x.run s = (some a, s')) : (x >>= f).run s = (f a).run s' := by
  show (match x s with | (some a, s') => f a s' | (none, s') => (none, s')) = f a s'
  rw [show x s = (some a, s') from h]

theorem run_bind_none {x : Watch σ α} {f : α → Watch σ β} {s s' : σ}
    (h : x.run s = (none, s')) : (x >>= f).run s = (none, s') := by
  show (match x s with | (some a, s') => f a s' | (none, s') => (none, s')) = (none, s')
  rw [show x s = (none, s') from h]

/-- `loop { body }` watched for `n` rounds; `body` answers `none` to go round
again. -/
def retry (body : Watch σ (Option α)) : ℕ → Watch σ α
  | 0 => stop
  | n + 1 => do
    match ← body with
    | some a => pure a
    | none => retry body n

theorem retry_succ_again {body : Watch σ (Option α)} {n : ℕ} {s s' : σ}
    (h : body.run s = (some none, s')) : (retry body (n + 1)).run s = (retry body n).run s' :=
  run_bind_some h

theorem retry_succ_exit {body : Watch σ (Option α)} {n : ℕ} {s s' : σ} {a : α}
    (h : body.run s = (some (some a), s')) : (retry body (n + 1)).run s = (some a, s') :=
  run_bind_some h

theorem retry_succ_stop {body : Watch σ (Option α)} {n : ℕ} {s s' : σ}
    (h : body.run s = (none, s')) : (retry body (n + 1)).run s = (none, s') :=
  run_bind_none h

open Transition in
/-- **The loop rule.** If from every state satisfying `I` a round either goes
again by a step of `Round` that keeps `I`, or exits as `Exit` allows, then a
watched loop makes a run of `Round` and then exits, or makes one as long as the
watch and is still running. -/
theorem retry_rule {ρ : Type} {body : Watch σ (Option α)} {I : σ → Prop}
    {Round : σ → ρ → σ → Prop} {Exit : σ → α → σ → Prop}
    (hbody : ∀ s, I s →
      (∃ p s', body.run s = (some none, s') ∧ Round s p s' ∧ I s') ∨
      (∃ a s', body.run s = (some (some a), s') ∧ Exit s a s')) :
    ∀ (n : ℕ) {s : σ}, I s →
      ∃ ps mid, Run Round s ps mid ∧ I mid ∧
        (((retry body n).run s = (none, mid) ∧ ps.length = n) ∨
          ∃ a s', (retry body n).run s = (some a, s') ∧ ps.length < n ∧ Exit mid a s') := by
  intro n
  induction n with
  | zero =>
    intro s hI
    exact ⟨[], s, .nil s, hI, Or.inl ⟨rfl, rfl⟩⟩
  | succ n ih =>
    intro s hI
    rcases hbody s hI with ⟨p, s', hrun, hround, hI'⟩ | ⟨a, s', hrun, hexit⟩
    · obtain ⟨ps, mid, hps, hmid, hend⟩ := ih hI'
      refine ⟨p :: ps, mid, .cons hround hps, hmid, ?_⟩
      rw [retry_succ_again hrun]
      rcases hend with ⟨h, hlen⟩ | ⟨a, s'', h, hlen, hexit⟩
      · exact Or.inl ⟨h, by rw [List.length_cons, hlen]⟩
      · exact Or.inr ⟨a, s'', h, by rw [List.length_cons]; omega, hexit⟩
    · exact ⟨[], s, .nil s, hI, Or.inr ⟨a, s', retry_succ_exit hrun, Nat.succ_pos n, hexit⟩⟩

/-! ## Computations that agree -/

/-- What goes on alike wherever a computation leads makes no difference after it. -/
theorem run_bind_congr {x : Watch σ α} {f g : α → Watch σ β} {s : σ}
    (h : ∀ a s', x.run s = (some a, s') → (f a).run s' = (g a).run s') :
    (x >>= f).run s = (x >>= g).run s := by
  show (match x s with | (some a, s') => f a s' | (none, s') => (none, s'))
    = match x s with | (some a, s') => g a s' | (none, s') => (none, s')
  rcases hrun : x s with ⟨_ | a, s'⟩
  · rfl
  · exact h a s' hrun

theorem run_bind_left {x y : Watch σ α} {s : σ} (h : x.run s = y.run s) (f : α → Watch σ β) :
    (x >>= f).run s = (y >>= f).run s := by
  show (match x s with | (some a, s') => f a s' | (none, s') => (none, s'))
    = match y s with | (some a, s') => f a s' | (none, s') => (none, s')
  rw [show x s = y s from h]

/-- Loops agree whose bodies agree in an invariant, kept by the rounds that go
again. -/
theorem retry_congr {body body' : Watch σ (Option α)} {I : σ → Prop}
    (hbody : ∀ s, I s → body.run s = body'.run s)
    (hkeep : ∀ s s', I s → body.run s = (some none, s') → I s') (n : ℕ) {s : σ} (hs : I s) :
    (retry body n).run s = (retry body' n).run s := by
  induction n generalizing s with
  | zero => rfl
  | succ n ih =>
    have heq := hbody s hs
    rcases hrun : body.run s with ⟨_ | _ | a, s'⟩
    · rw [retry_succ_stop hrun, retry_succ_stop (heq ▸ hrun)]
    · rw [retry_succ_again hrun, retry_succ_again (heq ▸ hrun)]
      exact ih (hkeep s s' hs hrun)
    · rw [retry_succ_exit hrun, retry_succ_exit (heq ▸ hrun)]

/-! ## What a computation keeps -/

/-- From a state in `I` the computation leaves one in `I`, and so it does if the
watch ends on it. -/
def Keeps (I : σ → Prop) (x : Watch σ α) : Prop := ∀ s, I s → I (x.run s).2

namespace Keeps

variable {I : σ → Prop}

theorem pure (a : α) : Keeps I (Pure.pure a : Watch σ α) := fun _ hs => hs

theorem step {f : σ → α × σ} (hf : ∀ s, I s → I (f s).2) : Keeps I (step f) := hf

theorem bind {x : Watch σ α} {f : α → Watch σ β} (hx : Keeps I x) (hf : ∀ a, Keeps I (f a)) :
    Keeps I (x >>= f) := by
  intro s hs
  have hkept := hx s hs
  rcases hrun : x.run s with ⟨_ | a, s'⟩
  · rw [hrun] at hkept
    rw [run_bind_none hrun]
    exact hkept
  · rw [hrun] at hkept
    rw [run_bind_some hrun]
    exact hf a s' hkept

theorem retry {body : Watch σ (Option α)} (hbody : Keeps I body) (n : ℕ) :
    Keeps I (retry body n) := by
  induction n with
  | zero => exact fun _ hs => hs
  | succ n ih =>
    refine hbody.bind ?_
    intro a
    cases a with
    | none => exact ih
    | some a => exact .pure a

end Keeps

end Watch
