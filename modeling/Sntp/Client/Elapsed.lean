import Sntp.Wire.Instant
import Sntp.Wire.Packet

/-!
# Elapsed time between two clock readings

`calculateElapsedMs` is the client's own era arithmetic: the seconds are taken
modulo `2^32`, the fractions are added or subtracted separately, and the
subtraction is a wrapping one on 64 bits, defect and all. In exact integers it
is one expression, cut to 64 bits (`calculateElapsedMs_toNat`), which goes below
zero only for a reading earlier in the same second by a whole millisecond.

Two consequences are what the deadlines rest on, both for readings given as
instants less than `2^32 - 1` seconds apart:

- `elapsed_error`: the elapsed time is within `roundingMs` of the exact one;
- `elapsed_since_stamped`: the same from a *stamped* reading, whose up to 16
  random bits may put it after the reading it is compared with. They never
  leave the second, and they are worth less than one `ticksPerMs`, so the
  wrapping subtraction subtracts zero.
-/

namespace Sntp

/-- `FRACTIONS_PER_MS`. -/
def fractionsPerMs : UInt64 := 4295000

/-- `calculate_elapsed_ms`: milliseconds from `older` to `current`. -/
def calculateElapsedMs (current older : Timestamp) : UInt64 :=
  let seconds : UInt64 :=
    if current.seconds < older.seconds then
      (0xFFFFFFFF - older.seconds).toUInt64 + 1 + current.seconds.toUInt64
    else (current.seconds - older.seconds).toUInt64
  let millis := seconds * 1000
  if older.fractions < current.fractions then
    millis + (current.fractions.toUInt64 - older.fractions.toUInt64) / fractionsPerMs
  else
    -- the wrapping subtraction of the original
    millis - (older.fractions.toUInt64 - current.fractions.toUInt64) / fractionsPerMs

/-- Elapsed milliseconds in exact integers, before they are cut to 64 bits. -/
def elapsedExact (current older : Timestamp) : ℤ :=
  1000 * (((current.seconds.toNat : ℤ) - older.seconds.toNat) % ticksPerSecond)
    + ((current.fractions.toNat : ℤ) - older.fractions.toNat).tdiv ticksPerMs

/-- The seconds are taken modulo one era: the branch is the borrow. -/
theorem elapsed_seconds_toNat (current older : UInt32) :
    ((if current < older then (0xFFFFFFFF - older).toUInt64 + 1 + current.toUInt64
      else (current - older).toUInt64 : UInt64).toNat : ℤ)
      = ((current.toNat : ℤ) - older.toNat) % ticksPerSecond := by
  have hc := current.toNat_lt
  have ho := older.toNat_lt
  rw [ticksPerSecond_eq]
  by_cases hlt : current < older
  · rw [if_pos hlt]
    have hlt' : current.toNat < older.toNat := UInt32.lt_iff_toNat_lt.mp hlt
    simp only [UInt64.toNat_add, UInt32.toNat_toUInt64, UInt32.toNat_sub,
      show (0xFFFFFFFF : UInt32).toNat = 4294967295 from rfl, show (1 : UInt64).toNat = 1 from rfl]
    omega
  · rw [if_neg hlt]
    have hge : older.toNat ≤ current.toNat := by
      rw [UInt32.lt_iff_toNat_lt] at hlt
      omega
    simp only [UInt32.toNat_toUInt64, UInt32.toNat_sub]
    omega

/-- A difference of fractions, in whole milliseconds. -/
theorem fractions_div_toNat {larger smaller : UInt32} (h : smaller ≤ larger) :
    (((larger.toUInt64 - smaller.toUInt64) / fractionsPerMs).toNat : ℤ)
      = ((larger.toNat : ℤ) - smaller.toNat).tdiv ticksPerMs := by
  have hle : smaller.toNat ≤ larger.toNat := UInt32.le_iff_toNat_le.mp h
  rw [UInt64.toNat_div, UInt64.toNat_sub_of_le _ _ (UInt32.toUInt64_le.mpr h),
    UInt32.toNat_toUInt64, UInt32.toNat_toUInt64, ← Int.ofNat_sub hle]
  norm_cast

/-- The fractions are added or subtracted, cut to 64 bits either way. -/
theorem elapsed_fractions_toNat (millis : UInt64) (current older : UInt32) :
    ((if older < current then millis + (current.toUInt64 - older.toUInt64) / fractionsPerMs
      else millis - (older.toUInt64 - current.toUInt64) / fractionsPerMs : UInt64).toNat : ℤ)
      = (millis.toNat + ((current.toNat : ℤ) - older.toNat).tdiv ticksPerMs) % 2 ^ 64 := by
  by_cases hlt : older < current
  · rw [if_pos hlt, ← fractions_div_toNat (UInt32.le_of_lt hlt), UInt64.toNat_add]
    omega
  · rw [if_neg hlt, ← neg_sub (older.toNat : ℤ), Int.neg_tdiv,
      ← fractions_div_toNat (UInt32.not_lt.mp hlt), UInt64.toNat_sub]
    have hback := ((older.toUInt64 - current.toUInt64) / fractionsPerMs).toNat_lt
    omega

theorem calculateElapsedMs_toNat (current older : Timestamp) :
    ((calculateElapsedMs current older).toNat : ℤ) = elapsedExact current older % 2 ^ 64 := by
  have hseconds := elapsed_seconds_toNat current.seconds older.seconds
  unfold calculateElapsedMs elapsedExact
  dsimp only
  rw [elapsed_fractions_toNat, ← hseconds]
  have hlt := Int.emod_lt_of_pos ((current.seconds.toNat : ℤ) - older.seconds.toNat)
    (Int.natCast_pos.mpr ticksPerSecond_pos)
  rw [← hseconds, ticksPerSecond_eq] at hlt
  -- the product with 1000 fits 64 bits
  rw [UInt64.toNat_mul, Nat.mod_eq_of_lt, Nat.cast_mul, mul_comm]
  · rfl
  · rw [show (1000 : UInt64).toNat = 1000 from rfl]
    omega

/-! ## Where nothing wraps -/

/-- The rounded fraction difference of two readings is less than a second. -/
theorem fraction_tdiv_bounds {x : ℤ} (h₁ : -(ticksPerSecond : ℤ) < x) (h₂ : x < ticksPerSecond) :
    -1000 < x.tdiv ticksPerMs ∧ x.tdiv ticksPerMs < 1000 := by
  have hT := ticksPerSecond_eq
  have hD := ticksPerMs_eq
  rcases Int.eq_nat_or_neg x with ⟨f, rfl | rfl⟩
  · rw [hD, Int.tdiv_eq_ediv_of_nonneg (by omega)]
    omega
  · rw [hD, Int.neg_tdiv, Int.tdiv_eq_ediv_of_nonneg (by omega)]
    omega

theorem elapsedExact_lt (current older : Timestamp) :
    elapsedExact current older < 2 ^ 32 * 1000 := by
  have hT := ticksPerSecond_eq
  have hcf := current.fractions.toNat_lt
  have hof := older.fractions.toNat_lt
  obtain ⟨_, hhi⟩ := fraction_tdiv_bounds
    (x := (current.fractions.toNat : ℤ) - older.fractions.toNat) (by omega) (by omega)
  rw [elapsedExact, hT]
  omega

/-- An exact value that is not below zero is what the code returns. -/
theorem calculateElapsedMs_of_nonneg {current older : Timestamp}
    (h : 0 ≤ elapsedExact current older) :
    ((calculateElapsedMs current older).toNat : ℤ) = elapsedExact current older := by
  have hlt := elapsedExact_lt current older
  rw [calculateElapsedMs_toNat, Int.emod_eq_of_lt h (by omega)]

/-- And it is within `roundingMs` of the distance between the words. -/
theorem elapsed_error_of_nonneg {current older : Timestamp} (h : 0 ≤ elapsedExact current older) :
    |((calculateElapsedMs current older).toNat : ℚ)
      - ticksMs (ticksPerSecond
          * (((current.seconds.toNat : ℤ) - older.seconds.toNat) % ticksPerSecond)
        + ((current.fractions.toNat : ℤ) - older.fractions.toNat))| < roundingMs := by
  have hT := ticksPerSecond_eq
  have hcf := current.fractions.toNat_lt
  have hof := older.fractions.toNat_lt
  have hcode : ((calculateElapsedMs current older).toNat : ℚ)
      = (elapsedExact current older : ℤ) := by
    exact_mod_cast congrArg (Int.cast : ℤ → ℚ) (calculateElapsedMs_of_nonneg h)
  rw [hcode, abs_sub_comm]
  exact Ticks.subunits_error ticksPerSecond_pos ticksPerMs_pos ticksPerSecond_le _
    (abs_le.mpr ⟨by omega, by omega⟩)

/-- The elapsed time since the zero timestamp is the reading itself: the
sentinel is measured from like any other instant. -/
theorem elapsed_since_zero (reading : Timestamp) :
    ((calculateElapsedMs reading .zero).toNat : ℤ) = reading.ms := by
  have hs := reading.seconds.toNat_lt
  have h₀ := reading.ms_nonneg
  have h₁ := reading.ms_lt
  have hexact : elapsedExact reading .zero = reading.ms := by
    show 1000 * (((reading.seconds.toNat : ℤ) - (0 : ℕ)) % (4294967296 : ℕ))
      + ((reading.fractions.toNat : ℤ) - (0 : ℕ)).tdiv (4295000 : ℕ) = reading.ms
    rw [Int.tdiv_eq_ediv_of_nonneg (by omega), Timestamp.ms]
    omega
  rw [calculateElapsedMs_of_nonneg (hexact ▸ h₀), hexact]

/-! ## Elapsed time between instants -/

/-- The exact elapsed time of two instants, from their unit words. -/
theorem elapsedExact_ofInstant {x y : ℤ} (hxy : x ≤ y)
    (hspan : y - x < (ticksPerSecond - 1) * ticksPerSecond) :
    elapsedExact (.ofInstant y) (.ofInstant x)
      = 1000 * (y / ticksPerSecond - x / ticksPerSecond)
        + (Ticks.lo ticksPerSecond y - Ticks.lo ticksPerSecond x).tdiv ticksPerMs := by
  rw [elapsedExact, ofInstant_seconds, ofInstant_seconds, ofInstant_fractions, ofInstant_fractions,
    Ticks.hi_sub_emod ticksPerSecond_pos hxy hspan]

/-- Forward in time nothing goes below zero. -/
theorem elapsedExact_ofInstant_nonneg {x y : ℤ} (hxy : x ≤ y)
    (hspan : y - x < (ticksPerSecond - 1) * ticksPerSecond) :
    0 ≤ elapsedExact (.ofInstant y) (.ofInstant x) := by
  have hT := ticksPerSecond_eq
  obtain ⟨hlx₀, hlx₁⟩ := lo_bounds x
  obtain ⟨hly₀, hly₁⟩ := lo_bounds y
  obtain ⟨hq₀, hq₁⟩ := Ticks.units_between ticksPerSecond_pos hxy hspan
  obtain ⟨hd₁, hd₂⟩ := fraction_tdiv_bounds
    (x := Ticks.lo ticksPerSecond y - Ticks.lo ticksPerSecond x) (by omega) (by omega)
  rw [elapsedExact_ofInstant hxy hspan]
  rcases lt_or_ge (x / ticksPerSecond) (y / ticksPerSecond) with hlt | hge
  · omega
  · -- within one second the fractions have not gone back either
    have hsame : x / ticksPerSecond = y / ticksPerSecond := by omega
    have hlo := Ticks.lo_eq_of_unit_eq hsame
    have := Int.tdiv_nonneg (a := Ticks.lo ticksPerSecond y - Ticks.lo ticksPerSecond x)
      (b := ticksPerMs) (by omega) (by decide)
    omega

/-- **Elapsed time is accurate**: within `roundingMs` of the exact distance, for
readings less than `2^32 - 1` seconds apart, in any eras. -/
theorem elapsed_error {x y : ℤ} (hxy : x ≤ y)
    (hspan : y - x < (ticksPerSecond - 1) * ticksPerSecond) :
    |((calculateElapsedMs (.ofInstant y) (.ofInstant x)).toNat : ℚ) - ticksMs (y - x)|
      < roundingMs := by
  have hdist : ticksPerSecond * (y / ticksPerSecond - x / ticksPerSecond)
      + (Ticks.lo ticksPerSecond y - Ticks.lo ticksPerSecond x) = y - x := by
    have hx := Ticks.unit_add_lo ticksPerSecond x
    have hy := Ticks.unit_add_lo ticksPerSecond y
    linarith
  have herr := elapsed_error_of_nonneg (elapsedExact_ofInstant_nonneg hxy hspan)
  rwa [ofInstant_seconds, ofInstant_seconds, ofInstant_fractions, ofInstant_fractions,
    Ticks.hi_sub_emod ticksPerSecond_pos hxy hspan, hdist] at herr

/-! ## Elapsed time since a stamped reading -/

/-- The random bits of a stamped reading move it forward by less than `2^16`
ticks and never into the next second. -/
theorem stamped_ofInstant (t : ℤ) (r : UInt32) :
    ∃ δ : ℤ, 0 ≤ δ ∧ δ < 2 ^ 16 ∧ stamped (.ofInstant t) r = .ofInstant (t + δ) ∧
      (t + δ) / ticksPerSecond = t / ticksPerSecond := by
  have hT := ticksPerSecond_eq
  have hf := ofInstant_fractions t
  have hunit := Ticks.unit_add_lo ticksPerSecond t
  obtain ⟨hge, hhigh⟩ := or_random_bounds (Timestamp.ofInstant t).fractions r
  have hlt := ((Timestamp.ofInstant t).fractions ||| (r >>> 16)).toNat_lt
  obtain ⟨hlo, _⟩ := lo_bounds t
  obtain ⟨δ, hδ⟩ : ∃ δ : ℤ, δ = ((Timestamp.ofInstant t).fractions ||| (r >>> 16)).toNat
      - (Timestamp.ofInstant t).fractions.toNat := ⟨_, rfl⟩
  have hunit' : (t + δ) / ticksPerSecond = t / ticksPerSecond := by
    rw [hT] at hunit ⊢
    omega
  have hlo' : Ticks.lo ticksPerSecond (t + δ)
      = ((Timestamp.ofInstant t).fractions ||| (r >>> 16)).toNat := by
    have := Ticks.lo_eq_of_unit_eq hunit'.symm
    omega
  refine ⟨δ, by omega, by omega, ?_, hunit'⟩
  have hseconds : (Timestamp.ofInstant (t + δ)).seconds = (Timestamp.ofInstant t).seconds := by
    rw [Timestamp.ofInstant, Timestamp.ofInstant, hunit']
  have hfractions : (Timestamp.ofInstant (t + δ)).fractions
      = (Timestamp.ofInstant t).fractions ||| (r >>> 16) := by
    apply UInt32.toNat_inj.mp
    have := ofInstant_fractions (t + δ)
    omega
  rw [stamped, ← hfractions, ← hseconds]

/-- A stamp later than the reading it is compared with is in the same second,
and the wrapping subtraction subtracts zero. -/
theorem elapsed_before_stamp {t y δ : ℤ} (hty : t ≤ y) (hyδ : y < t + δ) (hδ : δ < 2 ^ 16)
    (hunit : (t + δ) / ticksPerSecond = t / ticksPerSecond) :
    (calculateElapsedMs (.ofInstant y) (.ofInstant (t + δ))).toNat = 0 := by
  have hT := ticksPerSecond_eq
  have hsame : y / ticksPerSecond = (t + δ) / ticksPerSecond := by
    rw [hT] at hunit ⊢
    omega
  have hlo := Ticks.lo_eq_of_unit_eq hsame
  have hs : (Timestamp.ofInstant y).seconds = (Timestamp.ofInstant (t + δ)).seconds := by
    rw [Timestamp.ofInstant, Timestamp.ofInstant, hsame]
  have hzero : elapsedExact (.ofInstant y) (.ofInstant (t + δ)) = 0 := by
    rw [elapsedExact, hs, Int.sub_self, Int.zero_emod, ofInstant_fractions, ofInstant_fractions,
      ← neg_sub (Ticks.lo ticksPerSecond (t + δ)), hlo, Int.neg_tdiv,
      Int.tdiv_eq_zero_of_lt (by omega) (by rw [ticksPerMs_eq]; omega)]
    rfl
  have h := calculateElapsedMs_toNat (.ofInstant y) (.ofInstant (t + δ))
  rw [hzero] at h
  omega

/-- **Elapsed time since a stamped reading**: the random bits cost at most
another `2^16` ticks, on one side only. -/
theorem elapsed_since_stamped {t y : ℤ} (r : UInt32) (hty : t ≤ y)
    (hspan : y - t < (ticksPerSecond - 1) * ticksPerSecond) :
    ((calculateElapsedMs (.ofInstant y) (stamped (.ofInstant t) r)).toNat : ℚ)
        < ticksMs (y - t) + 1.01 ∧
      ticksMs (y - t) - 1.03
        < ((calculateElapsedMs (.ofInstant y) (stamped (.ofInstant t) r)).toNat : ℚ) := by
  have hr := roundingMs_lt
  obtain ⟨δ, hδ₀, hδ₁, hstamp, hunit⟩ := stamped_ofInstant t r
  have hsmall : ticksMs δ < 0.016 := by
    refine (ticksMs_mono (show δ ≤ 65536 by omega)).trans_lt ?_
    norm_num [ticksMs, Ticks.subunits, ticksPerSecond]
  rw [hstamp]
  rcases lt_or_ge y (t + δ) with hlt | hge
  · have hpos : 0 ≤ ticksMs (y - t) := by
      have h := ticksMs_mono (show 0 ≤ y - t by omega)
      simpa [ticksMs, Ticks.subunits] using h
    have hdist := ticksMs_mono (show y - t ≤ δ by omega)
    rw [elapsed_before_stamp hty hlt hδ₁ hunit, Nat.cast_zero]
    constructor <;> linarith
  · have herr := elapsed_error hge (by omega)
    have hδpos : 0 ≤ ticksMs δ := by
      have h := ticksMs_mono hδ₀
      simpa [ticksMs, Ticks.subunits] using h
    have hsplit : ticksMs (y - t) = ticksMs (y - (t + δ)) + ticksMs δ := by
      rw [← ticksMs_add]
      congr 1
      ring
    rw [abs_lt] at herr
    constructor <;> linarith [herr.1, herr.2]

end Sntp
