import Mathlib.Algebra.Order.Field.Basic
import Mathlib.Tactic.Linarith
import Mathlib.Tactic.Ring
import Mathlib.Tactic.GCongr

/-!
# A clock that drifts, and is set now and then

A clock runs beside true time: `behind` is how far it lags, negative when it is
ahead. Between two moments it may gain or lose at most `ρ` per unit of time
(`Drifts`). Two things are true of such clocks in general:

- `two_way_error`: a two-way exchange, timed by the clock at both ends and by true
  time in between, measures the lag to within half of its duration;
- `Kept.drifts` and `Kept.behind_le`: a clock that was within `ε` when it was last
  set is within `ε + ρ P` for as long as the next setting is at most `P` away.
-/

namespace Drift

variable {K : Type*} [Field K] [LinearOrder K] [IsStrictOrderedRing K]

/-- True time, and how far the clock is behind it. -/
structure Clock (K : Type*) where
  time : K
  behind : K

/-- What the clock shows. -/
def Clock.reading (k : Clock K) : K := k.time - k.behind

/-- Time goes on from `k` to `k'`, and the clock gains or loses at most `ρ`. -/
structure Drifts (ρ : K) (k k' : Clock K) : Prop where
  time : k.time ≤ k'.time
  behind : |k'.behind - k.behind| ≤ ρ * (k'.time - k.time)

namespace Drifts

variable {ρ : K} {k k' k'' : Clock K}

theorem refl (k : Clock K) : Drifts ρ k k := by
  refine ⟨le_rfl, ?_⟩
  rw [sub_self, sub_self, mul_zero, abs_zero]

theorem trans (h : Drifts ρ k k') (h' : Drifts ρ k' k'') : Drifts ρ k k'' := by
  refine ⟨h.time.trans h'.time, ?_⟩
  calc |k''.behind - k.behind|
      = |(k''.behind - k'.behind) + (k'.behind - k.behind)| := by rw [sub_add_sub_cancel]
    _ ≤ |k''.behind - k'.behind| + |k'.behind - k.behind| := abs_add_le _ _
    _ ≤ ρ * (k''.time - k'.time) + ρ * (k'.time - k.time) := add_le_add h'.behind h.behind
    _ = ρ * (k''.time - k.time) := by ring

/-- **A two-way exchange measures the lag to within half of its duration.** The
clock times the two ends, at `k` and at `k'`, and true time the two moments
`r ≤ t` in between; what is measured is the mean of the two legs. -/
theorem two_way_error (h : Drifts ρ k k') {r t : K} (hr : k.time ≤ r) (hrt : r ≤ t)
    (ht : t ≤ k'.time) :
    |((r - k.reading) + (t - k'.reading)) / 2 - k'.behind|
      ≤ (1 + ρ) * (k'.time - k.time) / 2 := by
  obtain ⟨_, hdrift⟩ := h
  rw [abs_le] at hdrift ⊢
  unfold Clock.reading
  constructor <;> linarith [hdrift.1, hdrift.2]

end Drifts

/-- The clock was within `ε` of true time at `setAt`, and has only drifted since. -/
def Kept (ρ ε setAt : K) (k : Clock K) : Prop :=
  setAt ≤ k.time ∧ |k.behind| ≤ ε + ρ * (k.time - setAt)

namespace Kept

variable {ρ ε setAt : K} {k k' : Clock K}

omit [IsStrictOrderedRing K] in
theorem of_set (h : |k.behind| ≤ ε) : Kept ρ ε k.time k := by
  refine ⟨le_rfl, ?_⟩
  rw [sub_self, mul_zero, add_zero]
  exact h

theorem drifts (h : Kept ρ ε setAt k) (hdrift : Drifts ρ k k') : Kept ρ ε setAt k' := by
  refine ⟨h.1.trans hdrift.time, ?_⟩
  calc |k'.behind| = |(k'.behind - k.behind) + k.behind| := by rw [sub_add_cancel]
    _ ≤ |k'.behind - k.behind| + |k.behind| := abs_add_le _ _
    _ ≤ ρ * (k'.time - k.time) + (ε + ρ * (k.time - setAt)) := add_le_add hdrift.behind h.2
    _ = ε + ρ * (k'.time - setAt) := by ring

/-- Until the next setting the clock is as good as its drift allows. -/
theorem behind_le (h : Kept ρ ε setAt k) (hρ : 0 ≤ ρ) {P : K} (hP : k.time - setAt ≤ P) :
    |k.behind| ≤ ε + ρ * P := by
  have hmul := mul_le_mul_of_nonneg_left hP hρ
  linarith [h.2]

end Kept

end Drift
