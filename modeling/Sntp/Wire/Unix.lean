import Sntp.Lib.MachineNat
import Sntp.Wire.Era
import Sntp.Wire.Instant

/-!
# UNIX time

Between 1970 and 2106 an SNTP timestamp is a UNIX time moved by 70 years, modulo
the wrap of 2036. `convertToUnixTime` takes it back by two formulas, one on each
side of the wrap, which are one subtraction modulo `2^32`
(`convertToUnixTime_seconds`) because the two constants sum to `2^32`; and it
turns the fractions into microseconds with a divisor slightly too large, as
`fractionsToMs` does for milliseconds.

> `convertToUnixTime_exact`: the seconds of an instant come back, the microseconds
> are less than nine short, the milliseconds are those of the era arithmetic, and
> order is preserved, across the wrap as well.
-/

namespace Sntp

/-- `TIME_AT_UNIX_EPOCH_SECS`: 1970, counted from 1900. -/
def timeAtUnixEpochSecs : UInt32 := 2208988800

/-- `UNIX_TIME_SECS_AT_SNTP_ERA_1_SMALLEST_TIME`: the wrap, counted from 1970. -/
def unixTimeSecsAtSntpEra1SmallestTime : UInt32 := 2085978496

/-- `convert_to_unix_time`: UNIX seconds and microseconds. -/
def convertToUnixTime (sntpTime : Timestamp) : UInt32 × UInt32 :=
  let seconds :=
    if sntpTime.seconds ≥ timeAtUnixEpochSecs then
      MachineNat.saturatingSub sntpTime.seconds timeAtUnixEpochSecs
    else unixTimeSecsAtSntpEra1SmallestTime + sntpTime.seconds
  let microseconds := sntpTime.fractions / fractionValuePerMicrosecond
  (seconds, microseconds)

/-- The timestamp of a UNIX instant: `u` seconds and `f` ticks since 1970. -/
def Timestamp.ofUnix (u f : UInt32) : Timestamp :=
  ⟨UInt32.ofNat ((u.toNat + 2208988800) % 2 ^ 32), f⟩

/-! ## Seconds -/

/-- The two era constants are complementary. -/
theorem era_constants_add : timeAtUnixEpochSecs + unixTimeSecsAtSntpEra1SmallestTime = 0 := by
  decide

/-- The saturating subtraction of the first branch is exact. -/
theorem saturatingSub_epoch {seconds : UInt32} (h : seconds ≥ timeAtUnixEpochSecs) :
    MachineNat.saturatingSub seconds timeAtUnixEpochSecs = seconds - timeAtUnixEpochSecs := by
  obtain ⟨difference, hsub, _, hvalue⟩ :=
    MachineNat.exists_sub seconds timeAtUnixEpochSecs (UInt32.le_iff_toNat_le.mp h)
  rw [hsub]
  apply UInt32.toNat_inj.mp
  rw [UInt32.toNat_sub_of_le _ _ h]
  exact hvalue

/-- Both branches subtract the 70 years, modulo the wrap. -/
theorem convertToUnixTime_seconds (t : Timestamp) :
    (convertToUnixTime t).1 = t.seconds - timeAtUnixEpochSecs := by
  unfold convertToUnixTime
  dsimp only
  by_cases h : t.seconds ≥ timeAtUnixEpochSecs
  · rw [if_pos h, saturatingSub_epoch h]
  · rw [if_neg h, eq_sub_iff_add_eq, add_right_comm, add_comm unixTimeSecsAtSntpEra1SmallestTime,
      era_constants_add, zero_add]

theorem ofUnix_seconds (u f : UInt32) :
    (Timestamp.ofUnix u f).seconds = u + timeAtUnixEpochSecs := by
  apply UInt32.toNat_inj.mp
  rw [Timestamp.ofUnix, UInt32.toNat_ofNat', Nat.mod_mod, UInt32.toNat_add]
  rfl

/-- A UNIX second comes back, whichever side of the wrap its timestamp is on. -/
theorem convertToUnixTime_ofUnix_seconds (u f : UInt32) :
    (convertToUnixTime (.ofUnix u f)).1 = u := by
  rw [convertToUnixTime_seconds, ofUnix_seconds, add_sub_cancel_right]

/-! ## Microseconds -/

/-- The microseconds' divisor errs on the large side too. -/
theorem ticksPerSecond_le_micros : ticksPerSecond ≤ 1000000 * 4295 := by decide

theorem convertToUnixTime_micros (t : Timestamp) :
    (convertToUnixTime t).2.toNat = t.fractions.toNat / 4295 :=
  UInt32.toNat_div _ _

/-- The microseconds of a fraction, and how far they fall short of it. -/
theorem convertToUnixTime_micros_error (t : Timestamp) :
    ((convertToUnixTime t).2.toNat : ℚ) ≤ t.fractions.toNat * 10 ^ 6 / 2 ^ 32 ∧
      t.fractions.toNat * 10 ^ 6 / 2 ^ 32 - ((convertToUnixTime t).2.toNat : ℚ) < 9 := by
  have hf : t.fractions.toNat ≤ ticksPerSecond := t.fractions.toNat_lt.le
  have hle := Ticks.div_le_subunits ticksPerSecond_pos (by decide) ticksPerSecond_le_micros
    t.fractions.toNat
  have hlt := Ticks.subunits_lt_div_add ticksPerSecond_pos (by decide) ticksPerSecond_le_micros hf
  have hexact : Ticks.subunits ticksPerSecond 1000000 t.fractions.toNat
      = t.fractions.toNat * 10 ^ 6 / 2 ^ 32 := by
    norm_num [Ticks.subunits, ticksPerSecond]
  have hslack : 1 + Ticks.slack ticksPerSecond 1000000 4295 < 9 := by
    norm_num [Ticks.slack, ticksPerSecond]
  rw [hexact, ← convertToUnixTime_micros] at hle hlt
  constructor <;> linarith

/-- Microseconds and the milliseconds of the era arithmetic round alike. -/
theorem convertToUnixTime_micros_div (t : Timestamp) :
    (convertToUnixTime t).2 / 1000 = fractionsToMs t.fractions := by
  apply UInt32.toNat_inj.mp
  rw [fractionsToMs_toNat, UInt32.toNat_div, convertToUnixTime_micros,
    show (1000 : UInt32).toNat = 1000 from rfl, Nat.div_div_eq_div_mul]

/-! ## Order -/

/-- A later instant has a later UNIX time, or the same one. -/
theorem convertToUnixTime_mono {u₁ f₁ u₂ f₂ : UInt32}
    (h : u₁.toNat * 2 ^ 32 + f₁.toNat ≤ u₂.toNat * 2 ^ 32 + f₂.toNat) :
    (convertToUnixTime (.ofUnix u₁ f₁)).1 < (convertToUnixTime (.ofUnix u₂ f₂)).1 ∨
      (convertToUnixTime (.ofUnix u₁ f₁)).1 = (convertToUnixTime (.ofUnix u₂ f₂)).1 ∧
        (convertToUnixTime (.ofUnix u₁ f₁)).2 ≤ (convertToUnixTime (.ofUnix u₂ f₂)).2 := by
  have hf₁ := f₁.toNat_lt
  have hf₂ := f₂.toNat_lt
  rw [convertToUnixTime_ofUnix_seconds, convertToUnixTime_ofUnix_seconds]
  rcases lt_or_ge u₁.toNat u₂.toNat with hlt | hge
  · exact Or.inl (UInt32.lt_iff_toNat_lt.mpr hlt)
  · -- not a later second, so the same one, and then the fractions are in order
    have hu : u₁.toNat = u₂.toNat := by omega
    refine Or.inr ⟨UInt32.toNat_inj.mp hu, UInt32.le_iff_toNat_le.mpr ?_⟩
    rw [convertToUnixTime_micros, convertToUnixTime_micros]
    exact Nat.div_le_div_right (show f₁.toNat ≤ f₂.toNat by omega)

/-- **UNIX time is exact to the second and preserves order**, from 1970 to 2106. -/
theorem convertToUnixTime_exact :
    (∀ u f : UInt32,
      (convertToUnixTime (.ofUnix u f)).1 = u ∧
      (convertToUnixTime (.ofUnix u f)).2.toNat < 1000000 ∧
      ((convertToUnixTime (.ofUnix u f)).2.toNat : ℚ) ≤ f.toNat * 10 ^ 6 / 2 ^ 32 ∧
      f.toNat * 10 ^ 6 / 2 ^ 32 - ((convertToUnixTime (.ofUnix u f)).2.toNat : ℚ) < 9 ∧
      (convertToUnixTime (.ofUnix u f)).2 / 1000 = fractionsToMs f) ∧
    ∀ u₁ f₁ u₂ f₂ : UInt32, u₁.toNat * 2 ^ 32 + f₁.toNat ≤ u₂.toNat * 2 ^ 32 + f₂.toNat →
      (convertToUnixTime (.ofUnix u₁ f₁)).1 < (convertToUnixTime (.ofUnix u₂ f₂)).1 ∨
        (convertToUnixTime (.ofUnix u₁ f₁)).1 = (convertToUnixTime (.ofUnix u₂ f₂)).1 ∧
          (convertToUnixTime (.ofUnix u₁ f₁)).2 ≤ (convertToUnixTime (.ofUnix u₂ f₂)).2 := by
  refine ⟨fun u f => ?_, fun u₁ f₁ u₂ f₂ => convertToUnixTime_mono⟩
  obtain ⟨hle, hnear⟩ := convertToUnixTime_micros_error (.ofUnix u f)
  refine ⟨convertToUnixTime_ofUnix_seconds u f, ?_, hle, hnear,
    convertToUnixTime_micros_div (.ofUnix u f)⟩
  have hf := (Timestamp.ofUnix u f).fractions.toNat_lt
  rw [convertToUnixTime_micros]
  omega

/-- The last tick of era 0, and the first of era 1. -/
example : convertToUnixTime ⟨0xFFFFFFFF, 0xFFFFFFFF⟩ = (2085978495, 999992) ∧
    convertToUnixTime .zero = (2085978496, 0) := by decide

end Sntp
