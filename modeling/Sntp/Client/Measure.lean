import Mathlib.Algebra.Order.Floor.Ring
import Mathlib.Data.Rat.Floor
import Sntp.Client.Elapsed
import Sntp.Wire.Offset

/-!
# What a round trip measures

`calculateClockOffset_error` is about four instants of the wire format. The
clocks behind them run in continuous time, and the first of the four is not the
reading that was taken but the reading with random bits in it. `Timestamp.ofMs` is
what a clock shows at a moment in milliseconds since 1900, in any era, and

> `measured_offset_error`: the offset reported for a request stamped at `x₁`, served
> from `x₂` to `x₃` and answered at `x₄` is within 1.52 ms of the mean of the two legs.

Cutting a moment to ticks and stamping it together cost less than a hundredth of
a millisecond of that.
-/

namespace Sntp

/-- The tick a moment in milliseconds falls in. -/
def ticksOfMs (x : ℚ) : ℤ := ⌊x * ticksPerSecond / 1000⌋

/-- What a clock shows at a moment in milliseconds since 1900. -/
def Timestamp.ofMs (x : ℚ) : Timestamp := .ofInstant (ticksOfMs x)

/-- Whole seconds are cut exactly. -/
theorem ofMs_seconds (n : ℤ) : Timestamp.ofMs (1000 * n) = .ofInstant (ticksPerSecond * n) := by
  have h : 1000 * (n : ℚ) * ticksPerSecond / 1000 = ((ticksPerSecond * n : ℤ) : ℚ) := by
    push_cast
    ring
  rw [Timestamp.ofMs, ticksOfMs, h, Int.floor_intCast]

/-- A number of ticks in milliseconds. -/
theorem ticksMs_eq (d : ℤ) : ticksMs d = d * 1000 / ticksPerSecond := by
  rw [ticksMs, Ticks.subunits]
  norm_num

/-- A moment on a tick is not cut. -/
theorem ofMs_ticks (n : ℤ) : Timestamp.ofMs (ticksMs n) = .ofInstant n := by
  have hT : (ticksPerSecond : ℚ) = 4294967296 := rfl
  have h : ticksMs n * ticksPerSecond / 1000 = n := by
    rw [ticksMs_eq, hT]
    ring
  rw [Timestamp.ofMs, ticksOfMs, h, Int.floor_intCast]

/-- A moment is cut down by less than a tick. -/
theorem ticksOfMs_error (x : ℚ) :
    ticksMs (ticksOfMs x) ≤ x ∧ x < ticksMs (ticksOfMs x) + 0.001 := by
  have hle := Int.floor_le (x * ticksPerSecond / 1000)
  have hlt := Int.lt_floor_add_one (x * ticksPerSecond / 1000)
  have hT : (ticksPerSecond : ℚ) = 4294967296 := rfl
  rw [ticksMs_eq, ticksOfMs]
  rw [hT] at hle hlt ⊢
  constructor <;> linarith

/-- Fewer than `2^16` ticks are less than 0.016 ms. -/
theorem ticksMs_stamp {δ : ℤ} (h₀ : 0 ≤ δ) (h₁ : δ < 2 ^ 16) :
    0 ≤ ticksMs δ ∧ ticksMs δ < 0.016 := by
  have hT : (ticksPerSecond : ℚ) = 4294967296 := rfl
  have h₀' : (0 : ℚ) ≤ δ := by exact_mod_cast h₀
  have h₁' : (δ : ℚ) < 65536 := by exact_mod_cast h₁
  rw [ticksMs_eq, hT]
  constructor <;> linarith

/-- **The offset reported for a stamped request** is within 1.52 ms of the mean of
the two legs, whatever the random bits, when both are short of half an era by
3 ms. -/
theorem measured_offset_error {x₁ x₂ x₃ x₄ : ℚ} (r : UInt32)
    (hsend : |x₂ - x₁| < 2 ^ 31 * 1000 - 3) (hrecv : |x₃ - x₄| < 2 ^ 31 * 1000 - 3) :
    |((calculateClockOffset (stamped (.ofMs x₁) r) (.ofMs x₂) (.ofMs x₃) (.ofMs x₄)).toInt : ℚ)
      - ((x₂ - x₁) + (x₃ - x₄)) / 2| < 1.52 := by
  obtain ⟨δ, hδ₀, hδ₁, hstamp, _⟩ := stamped_ofInstant (ticksOfMs x₁) r
  obtain ⟨hstamp₀, hstamp₁⟩ := ticksMs_stamp hδ₀ hδ₁
  obtain ⟨h₁, h₁'⟩ := ticksOfMs_error x₁
  obtain ⟨h₂, h₂'⟩ := ticksOfMs_error x₂
  obtain ⟨h₃, h₃'⟩ := ticksOfMs_error x₃
  obtain ⟨h₄, h₄'⟩ := ticksOfMs_error x₄
  rw [abs_lt] at hsend hrecv
  have hsend' : |ticksMs (ticksOfMs x₂ - (ticksOfMs x₁ + δ))| < 2 ^ 31 * 1000 - 2 := by
    rw [ticksMs_sub, ticksMs_add, abs_lt]
    constructor <;> linarith [hsend.1, hsend.2]
  have hrecv' : |ticksMs (ticksOfMs x₃ - ticksOfMs x₄)| < 2 ^ 31 * 1000 - 2 := by
    rw [ticksMs_sub, abs_lt]
    constructor <;> linarith [hrecv.1, hrecv.2]
  have herror := calculateClockOffset_error hsend' hrecv'
  simp only [Timestamp.ofMs]
  rw [hstamp]
  rw [ticksMs_add, ticksMs_sub, ticksMs_sub, ticksMs_add, abs_lt] at herror
  rw [abs_lt]
  constructor <;> linarith [herror.1, herror.2]

end Sntp
