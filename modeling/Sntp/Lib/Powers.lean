import Mathlib.Algebra.Group.Nat.Defs
import Mathlib.Data.Nat.Log
import Mathlib.Order.Bounds.Basic

/-!
# The largest power within a budget

Something that costs `t` apiece is wanted in a number that is a power of `b`, as
many as a budget of `A` pays for. The numbers that can be paid for are
`within b t A`, and the largest is found by dividing first and taking the
logarithm after (`isGreatest_pow_log_div`): rounding the quotient loses nothing.

That it is the greatest is all there is to know about it. The next power costs
more than the budget (`lt_mul_of_isGreatest`), and a larger budget or a lower
price never makes it smaller (`le_of_isGreatest`).
-/

namespace Powers

variable {b t t' A A' p p' : ℕ}

/-- The powers of `b` that a budget of `A` pays for, at `t` apiece. -/
def within (b t A : ℕ) : Set ℕ := {p | (∃ k, p = b ^ k) ∧ p * t ≤ A}

/-- One of them is all there is to pay for, if anything is. -/
theorem within_nonempty (hb : 0 < b) : (within b t A).Nonempty ↔ t ≤ A := by
  constructor
  · rintro ⟨p, ⟨k, rfl⟩, hle⟩
    exact (Nat.le_mul_of_pos_left t (Nat.pow_pos hb)).trans hle
  · intro h
    exact ⟨1, ⟨0, rfl⟩, by rwa [Nat.one_mul]⟩

theorem within_subset (ht : t' ≤ t) (hA : A ≤ A') : within b t A ⊆ within b t' A' := by
  rintro p ⟨hpow, hle⟩
  exact ⟨hpow, (Nat.mul_le_mul_left p ht).trans (hle.trans hA)⟩

/-- The power is found from the rounded quotient. -/
theorem isGreatest_pow_log_div (hb : 1 < b) (ht : 0 < t) (h : t ≤ A) :
    IsGreatest (within b t A) (b ^ Nat.log b (A / t)) := by
  have hquot : A / t ≠ 0 := (Nat.div_pos h ht).ne'
  constructor
  · refine ⟨⟨_, rfl⟩, ?_⟩
    exact (Nat.le_div_iff_mul_le ht).mp (Nat.pow_log_le_self b hquot)
  · rintro p ⟨⟨k, rfl⟩, hle⟩
    have hk : b ^ k ≤ A / t := (Nat.le_div_iff_mul_le ht).mpr hle
    exact Nat.pow_le_pow_right (by omega) (Nat.le_log_of_pow_le hb hk)

/-- The next power is not paid for. -/
theorem lt_mul_of_isGreatest (hb : 1 < b) (h : IsGreatest (within b t A) p) :
    A < b * (p * t) := by
  obtain ⟨⟨⟨k, rfl⟩, -⟩, hmax⟩ := h
  by_contra hge
  have hle : b ^ (k + 1) * t ≤ A := by
    rw [Nat.pow_succ', Nat.mul_assoc]
    exact not_lt.mp hge
  have hsucc : b ^ (k + 1) ≤ b ^ k := hmax ⟨⟨k + 1, rfl⟩, hle⟩
  exact absurd hsucc (not_le.mpr (Nat.pow_lt_pow_right hb (Nat.lt_succ_self k)))

theorem le_of_isGreatest (h : IsGreatest (within b t A) p) (h' : IsGreatest (within b t' A') p')
    (ht : t' ≤ t) (hA : A ≤ A') : p ≤ p' :=
  h.mono h' (within_subset ht hA)

end Powers
