import Mathlib.Data.Nat.Cast.Order.Field
import Mathlib.Data.Rat.Floor
import Mathlib.Tactic.Linarith
import Mathlib.Tactic.Ring
import Mathlib.Tactic.FieldSimp
import Mathlib.Tactic.Positivity

/-!
# Wrapping two-word clocks, and what a cheap division loses

A clock counts ticks, `W` to the unit. An *instant* is an unbounded integer
number of ticks; a machine keeps it as two words below `W`, the whole units
(modulo `W`) and the ticks within the unit. Two facts make such clocks usable:

- `hi_sub_emod`: of two instants less than `W - 1` units apart, the units between
  them are recovered from their unit words alone, whatever the wraps in between;
- `abs_subunits_sub_tdiv_lt`: turning ticks into sub-units, `N` to the unit, by
  a truncating division with a divisor `D` slightly above the exact `W / N`
  loses less than `1 + slack` sub-units, `slack = N - W / D`.

A distance is then rounded by its units and the ticks within them apart, and that
rounding is monotone in the exact distance, across units (`rounded_mono`).

`W`, `N` and `D` are parameters throughout.
-/

namespace Ticks

/-- The whole units of an instant, as the machine keeps them. -/
def hi (W : ℕ) (x : ℤ) : ℤ := x / W % W

/-- The ticks of an instant within its unit. -/
def lo (W : ℕ) (x : ℤ) : ℤ := x % W

theorem unit_add_lo (W : ℕ) (x : ℤ) : W * (x / W) + lo W x = x :=
  Int.mul_ediv_add_emod x W

theorem lo_nonneg {W : ℕ} (hW : 0 < W) (x : ℤ) : 0 ≤ lo W x :=
  Int.emod_nonneg x (by omega)

theorem lo_lt {W : ℕ} (hW : 0 < W) (x : ℤ) : lo W x < W :=
  Int.emod_lt_of_pos x (by omega)

/-- Adding whole units, any number of them, leaves the ticks within the unit. -/
theorem lo_eq_of_unit_eq {W : ℕ} {x y : ℤ} (h : x / W = y / W) : lo W y - lo W x = y - x := by
  have hx := unit_add_lo W x
  have hy := unit_add_lo W y
  rw [h] at hx
  linarith

/-- The units between two instants less than `W - 1` units apart: no more than
`W - 1` unit boundaries lie between them. -/
theorem units_between {W : ℕ} (hW : 0 < W) {x y : ℤ} (hxy : x ≤ y)
    (hspan : y - x < (W - 1) * W) : 0 ≤ y / W - x / W ∧ y / W - x / W < W := by
  have hWpos : (0 : ℤ) < W := by omega
  refine ⟨by have := Int.ediv_le_ediv hWpos hxy; omega, ?_⟩
  have hx := unit_add_lo W x
  have hy := unit_add_lo W y
  have hlx := lo_lt hW x
  have hly := lo_nonneg hW y
  by_contra hge
  have hle : (W : ℤ) ≤ y / W - x / W := not_lt.mp hge
  nlinarith

/-- The unit words of two instants differ, modulo the wrap, by the units
between them. -/
theorem hi_sub_emod {W : ℕ} (hW : 0 < W) {x y : ℤ} (hxy : x ≤ y)
    (hspan : y - x < (W - 1) * W) : (hi W y - hi W x) % W = y / W - x / W := by
  obtain ⟨h₀, h₁⟩ := units_between hW hxy hspan
  rw [hi, hi, ← Int.sub_emod, Int.emod_eq_of_lt h₀ h₁]

/-! ## Sub-units -/

/-- `x` ticks as an exact number of sub-units, `N` to the unit. -/
def subunits (W N : ℕ) (x : ℤ) : ℚ := x * N / W

/-- What the inexact divisor can add to the error of one truncation. -/
def slack (W N D : ℕ) : ℚ := N - W / D

variable {W N D : ℕ}

theorem subunits_add (x y : ℤ) : subunits W N (x + y) = subunits W N x + subunits W N y := by
  simp only [subunits]
  push_cast
  ring

theorem subunits_sub (x y : ℤ) : subunits W N (x - y) = subunits W N x - subunits W N y := by
  simp only [subunits]
  push_cast
  ring

theorem subunits_unit (hW : 0 < W) (k : ℤ) : subunits W N (W * k) = N * k := by
  have hW' : (W : ℚ) ≠ 0 := by positivity
  simp only [subunits]
  push_cast
  field_simp

theorem subunits_mono {x y : ℤ} (h : x ≤ y) : subunits W N x ≤ subunits W N y := by
  have h' : (x : ℚ) ≤ y := by exact_mod_cast h
  simp only [subunits]
  gcongr

/-- A truncating division by `D` never exceeds the exact value. -/
theorem div_le_subunits (hW : 0 < W) (hD : 0 < D) (hWD : W ≤ N * D) (f : ℕ) :
    ((f / D : ℕ) : ℚ) ≤ subunits W N f := by
  have hW' : (0 : ℚ) < W := by exact_mod_cast hW
  have hD' : (0 : ℚ) < D := by exact_mod_cast hD
  have hWD' : (W : ℚ) ≤ N * D := by exact_mod_cast hWD
  have hfloor : ((f / D : ℕ) : ℚ) ≤ f / D := Nat.cast_div_le
  have hexact : (f : ℚ) / D ≤ f * N / W := by
    rw [div_le_div_iff₀ hD' hW']
    nlinarith [(Nat.cast_nonneg f : (0 : ℚ) ≤ f)]
  simpa [subunits] using hfloor.trans hexact

/-- Within one unit it falls short of the exact value by less than `1 + slack`. -/
theorem subunits_lt_div_add (hW : 0 < W) (hD : 0 < D) (hWD : W ≤ N * D) {f : ℕ} (hf : f ≤ W) :
    subunits W N f < (f / D : ℕ) + (1 + slack W N D) := by
  have hW' : (0 : ℚ) < W := by exact_mod_cast hW
  have hD' : (0 : ℚ) < D := by exact_mod_cast hD
  have hWD' : (W : ℚ) ≤ N * D := by exact_mod_cast hWD
  have hf' : (f : ℚ) ≤ W := by exact_mod_cast hf
  have hceil : (f : ℚ) / D < (f / D : ℕ) + 1 := by
    rw [div_lt_iff₀ hD', mul_comm]
    exact_mod_cast Nat.lt_mul_div_succ f hD
  -- the exact rate exceeds `1 / D` by `slack / W`, and there are at most `W` ticks
  have hrate : (f : ℚ) * N / W - f / D ≤ slack W N D := by
    have : (f : ℚ) * N / W - f / D = f / W * (N - W / D) := by field_simp
    rw [this, slack]
    have h₁ : (f : ℚ) / W ≤ 1 := (div_le_one hW').mpr hf'
    have h₂ : (0 : ℚ) ≤ N - W / D := by
      rw [sub_nonneg, div_le_iff₀ hD']
      exact hWD'
    nlinarith
  simp only [subunits, Int.cast_natCast]
  linarith

/-- The same in both directions: a signed number of ticks within one unit,
divided by `D` with truncation toward zero. -/
theorem abs_subunits_sub_tdiv_lt (hW : 0 < W) (hD : 0 < D) (hWD : W ≤ N * D) {x : ℤ}
    (hx : |x| ≤ W) : |subunits W N x - x.tdiv D| < 1 + slack W N D := by
  rcases Int.eq_nat_or_neg x with ⟨f, rfl | rfl⟩
  · have hf : f ≤ W := by simpa using hx
    have h₁ := div_le_subunits hW hD hWD f
    have h₂ := subunits_lt_div_add hW hD hWD hf
    rw [show ((f : ℤ).tdiv D : ℚ) = ((f / D : ℕ) : ℚ) by norm_cast, abs_lt]
    constructor <;> linarith
  · have hf : f ≤ W := by simpa using hx
    have h₁ := div_le_subunits hW hD hWD f
    have h₂ := subunits_lt_div_add hW hD hWD hf
    have hneg : subunits W N (-(f : ℤ)) = -subunits W N f := by
      simp only [subunits]
      push_cast
      ring
    rw [hneg, Int.neg_tdiv, Int.cast_neg,
      show ((f : ℤ).tdiv D : ℚ) = ((f / D : ℕ) : ℚ) by norm_cast, abs_lt]
    constructor <;> linarith

/-- A distance of whole units and ticks, the ticks rounded. -/
theorem subunits_error (hW : 0 < W) (hD : 0 < D) (hWD : W ≤ N * D) (k : ℤ) {x : ℤ}
    (hx : |x| ≤ W) : |subunits W N (W * k + x) - (N * k + x.tdiv D : ℤ)| < 1 + slack W N D := by
  have hround := abs_subunits_sub_tdiv_lt hW hD hWD hx
  rw [subunits_add, subunits_unit hW]
  push_cast
  rwa [add_sub_add_left_eq_sub]

/-! ## Distances forward -/

/-- A distance in units and ticks, modulo the span of the clock: only the units
wrap, unless the ticks take the distance below zero. -/
theorem span_emod (hW : 0 < W) {q x : ℤ} (hx : x < W) (h : 0 ≤ W * (q % W) + x) :
    (W * q + x) % (W * W) = W * (q % W) + x := by
  have hWpos : (0 : ℤ) < W := by omega
  have hlt : W * (q % W) + x < W * W := by
    have hq := Int.emod_lt_of_pos q hWpos
    nlinarith
  have hsplit : W * q + x = W * (q % W) + x + W * W * (q / W) := by
    conv_lhs => rw [← Int.mul_ediv_add_emod q W]
    ring
  rw [hsplit, Int.add_mul_emod_self_left, Int.emod_eq_of_lt h hlt]

/-- A rounded number of ticks is negative from a whole sub-unit below zero on. -/
theorem tdiv_neg_iff (hD : 0 < D) (x : ℤ) : x.tdiv D < 0 ↔ x ≤ -D := by
  have hDpos : (0 : ℤ) < D := by omega
  constructor
  · intro h
    by_contra hx
    rcases lt_or_ge x 0 with hneg | hnonneg
    · have hzero : (-x).tdiv D = 0 := Int.tdiv_eq_zero_of_lt (by omega) (by omega)
      rw [Int.neg_tdiv] at hzero
      omega
    · have := Int.tdiv_nonneg hnonneg hDpos.le
      omega
  · intro h
    have hle := Int.tdiv_le_tdiv hDpos h
    rw [Int.neg_tdiv, Int.tdiv_self hDpos.ne'] at hle
    omega

/-- Whole sub-units come out of a rounding, or leave it smaller where they take
a negative number of ticks above zero. -/
theorem tdiv_add_mul_le (hD : 0 < D) (y : ℤ) (n : ℕ) :
    (y + D * n).tdiv D ≤ y.tdiv D + n := by
  have hDpos : (0 : ℤ) < D := by omega
  have hexact : 0 ≤ y ∨ (D : ℤ) ∣ y → 0 ≤ y + D * n ∨ (D : ℤ) ∣ y + D * n := by
    rintro (hy | hy)
    · exact Or.inl (by positivity)
    · exact Or.inr (dvd_add hy (Int.dvd_mul_right _ _))
  rw [Int.tdiv_eq_ediv, Int.tdiv_eq_ediv, Int.add_mul_ediv_left y (n : ℤ) hDpos.ne',
    Int.sign_eq_one_of_pos hDpos]
  split_ifs with h₁ h₂ h₂
  · omega
  · omega
  · exact absurd (hexact h₂) h₁
  · omega

/-- The rounded distance is monotone in the exact one, across units. -/
theorem rounded_mono (hD : 0 < D) (hWD : W ≤ N * D) {k₁ k₂ x₁ x₂ : ℤ} (hk : k₁ ≤ k₂)
    (h : W * k₁ + x₁ ≤ W * k₂ + x₂) : N * k₁ + x₁.tdiv D ≤ N * k₂ + x₂.tdiv D := by
  obtain ⟨n, hn⟩ := Int.le.dest hk
  have hWD' : (W : ℤ) ≤ N * D := by exact_mod_cast hWD
  have hx : x₁ ≤ x₂ + D * (N * n : ℕ) := by
    push_cast
    nlinarith
  calc N * k₁ + x₁.tdiv D
      ≤ N * k₁ + (x₂ + D * (N * n : ℕ)).tdiv D := by
        have := Int.tdiv_le_tdiv (show (0 : ℤ) < D by omega) hx
        omega
    _ ≤ N * k₁ + (x₂.tdiv D + (N * n : ℕ)) := by
        have := tdiv_add_mul_le hD x₂ (N * n)
        omega
    _ = N * k₂ + x₂.tdiv D := by
        rw [← hn]
        push_cast
        ring

/-- Rounding a difference and rounding both its terms: one sub-unit apart at most. -/
theorem abs_ediv_sub_tdiv_le (hD : 0 < D) (a b : ℤ) : |a / D - b / D - (a - b).tdiv D| ≤ 1 := by
  have hDpos : (0 : ℤ) < D := by omega
  have ha₁ := Int.mul_ediv_self_le (x := a) hDpos.ne'
  have ha₂ := Int.lt_mul_ediv_self_add (x := a) hDpos
  have hb₁ := Int.mul_ediv_self_le (x := b) hDpos.ne'
  have hb₂ := Int.lt_mul_ediv_self_add (x := b) hDpos
  have hd₁ := Int.mul_ediv_self_le (x := a - b) hDpos.ne'
  have hd₂ := Int.lt_mul_ediv_self_add (x := a - b) hDpos
  have hlo : (a - b) / D ≤ a / D - b / D := by
    by_contra h
    nlinarith
  have hhi : a / D - b / D ≤ (a - b) / D + 1 := by
    by_contra h
    nlinarith
  have htdiv : (a - b) / D ≤ (a - b).tdiv D ∧ (a - b).tdiv D ≤ (a - b) / D + 1 := by
    rw [Int.tdiv_eq_ediv, Int.sign_eq_one_of_pos hDpos]
    split_ifs <;> omega
  rw [abs_le]
  omega

end Ticks
