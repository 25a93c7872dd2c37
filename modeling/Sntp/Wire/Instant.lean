import Sntp.Lib.Ticks
import Sntp.Wire.Types

/-!
# Timestamps of absolute instants

What is said about clocks is said about *instants*: unbounded numbers of
`2^-32` second ticks since 1900, in any era. A timestamp is such an instant cut
down to 64 bits (`Timestamp.ofInstant`), and these are the facts about the cut
that the era arithmetic and the deadline arithmetic both rest on. The exact
value in milliseconds of a number of ticks is the rational `ticksMs`.
-/

namespace Sntp

/-- Ticks in a second. -/
def ticksPerSecond : ℕ := 4294967296

/-- The divisor, in ticks, that stands for a millisecond throughout the code. -/
def ticksPerMs : ℕ := 4295000

theorem ticksPerSecond_eq : (ticksPerSecond : ℤ) = 4294967296 := rfl

theorem ticksPerMs_eq : (ticksPerMs : ℤ) = 4295000 := rfl

theorem ticksPerSecond_pos : 0 < ticksPerSecond := by decide

theorem ticksPerMs_pos : 0 < ticksPerMs := by decide

/-- The divisor errs on the large side. -/
theorem ticksPerSecond_le : ticksPerSecond ≤ 1000 * ticksPerMs := by decide

/-- The ticks of an instant within its second. -/
theorem lo_bounds (x : ℤ) :
    0 ≤ Ticks.lo ticksPerSecond x ∧ Ticks.lo ticksPerSecond x < ticksPerSecond :=
  ⟨Ticks.lo_nonneg ticksPerSecond_pos x, Ticks.lo_lt ticksPerSecond_pos x⟩

/-- `d` ticks in milliseconds, exactly. -/
def ticksMs (d : ℤ) : ℚ := Ticks.subunits ticksPerSecond 1000 d

/-- Two truncations of the inexact divisor are never more than this apart from
the exact value, in milliseconds. -/
def roundingMs : ℚ := 1 + Ticks.slack ticksPerSecond 1000 ticksPerMs

theorem roundingMs_lt : roundingMs < 1.0077 := by
  norm_num [roundingMs, Ticks.slack, ticksPerSecond, ticksPerMs]

theorem ticksMs_add (x y : ℤ) : ticksMs (x + y) = ticksMs x + ticksMs y :=
  Ticks.subunits_add x y

theorem ticksMs_sub (x y : ℤ) : ticksMs (x - y) = ticksMs x - ticksMs y :=
  Ticks.subunits_sub x y

theorem ticksMs_mono {x y : ℤ} (h : x ≤ y) : ticksMs x ≤ ticksMs y :=
  Ticks.subunits_mono h

theorem ticksMs_seconds (k : ℤ) : ticksMs (ticksPerSecond * k) = 1000 * k := by
  rw [ticksMs, Ticks.subunits_unit ticksPerSecond_pos]
  norm_num

/-- An instant cut down to 32-bit seconds and 32-bit fractions. -/
def Timestamp.ofInstant (x : ℤ) : Timestamp :=
  ⟨UInt32.ofInt (x / ticksPerSecond), UInt32.ofInt x⟩

theorem toNat_ofInt (x : ℤ) : ((UInt32.ofInt x).toNat : ℤ) = x % ticksPerSecond := by
  have h₀ := Int.emod_nonneg x (show (2 ^ 32 : ℤ) ≠ 0 by decide)
  have h₁ := Int.emod_lt_of_pos x (show (0 : ℤ) < 2 ^ 32 by decide)
  rw [UInt32.ofInt, UInt32.toNat_ofNat', show (ticksPerSecond : ℤ) = 2 ^ 32 from rfl]
  omega

theorem ofInstant_seconds (x : ℤ) :
    ((Timestamp.ofInstant x).seconds.toNat : ℤ) = Ticks.hi ticksPerSecond x :=
  toNat_ofInt _

theorem ofInstant_fractions (x : ℤ) :
    ((Timestamp.ofInstant x).fractions.toNat : ℤ) = Ticks.lo ticksPerSecond x :=
  toNat_ofInt _

/-- An instant in whole milliseconds, the way the code rounds one: exact to the
second, the fractions divided by `ticksPerMs`. -/
def instantMs (x : ℤ) : ℤ :=
  1000 * (x / ticksPerSecond) + (Ticks.lo ticksPerSecond x).tdiv ticksPerMs

/-- The code's milliseconds of an instant fall short of the exact ones by less
than `roundingMs`, and never exceed them. -/
theorem instantMs_error (x : ℤ) :
    (instantMs x : ℚ) ≤ ticksMs x ∧ ticksMs x < instantMs x + roundingMs := by
  obtain ⟨hlo₀, hlo₁⟩ := lo_bounds x
  obtain ⟨f, hf⟩ := Int.eq_ofNat_of_zero_le hlo₀
  have hexact : ticksMs x = 1000 * (x / ticksPerSecond : ℤ) + ticksMs f := by
    have hunit := Ticks.unit_add_lo ticksPerSecond x
    rw [hf] at hunit
    rw [← hunit, ticksMs_add, ticksMs_seconds, hunit]
  have hcode : (instantMs x : ℚ) = 1000 * (x / ticksPerSecond : ℤ) + (f / ticksPerMs : ℕ) := by
    rw [instantMs, hf, show (f : ℤ).tdiv ticksPerMs = ((f / ticksPerMs : ℕ) : ℤ) by norm_cast,
      Int.cast_add, Int.cast_mul, Int.cast_natCast]
    rfl
  have h₁ := Ticks.div_le_subunits ticksPerSecond_pos ticksPerMs_pos ticksPerSecond_le f
  have h₂ := Ticks.subunits_lt_div_add ticksPerSecond_pos ticksPerMs_pos ticksPerSecond_le
    (f := f) (by omega)
  rw [hexact, hcode, ticksMs, roundingMs]
  constructor <;> linarith

end Sntp
