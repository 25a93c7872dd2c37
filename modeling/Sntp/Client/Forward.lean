import Sntp.Client.Elapsed
import Sntp.Lib.MachineNat
import Sntp.Wire.Serialize

/-!
# Elapsed time as a distance forward

`Elapsed` measures between instants; this file says what `calculateElapsedMs`
makes of any two readings whatever. Two readings are `forwardTicks` apart, a
number below `2^64`, and the code reads the same distance off the words: the
seconds between them, modulo the wrap, and a signed difference of fractions
(`forwardTicks_eq`). The two disagree for one kind of pair only, a reading
earlier in the same second (`SteppedBack`), which is almost the whole of `2^64`
ticks ahead.

> `elapsed_forward`: the subtraction goes below zero exactly for a step back of a
> whole millisecond; otherwise the elapsed time is within 1.01 ms of the distance,
> and it never decreases as the distance grows.

> `elapsed_agrees`: up to half an era it is also the difference that the codec
> computes by its own method, up to the one millisecond that rounding once and
> rounding twice can differ by.
-/

namespace Sntp

/-! ## The checked twin -/

/-- The seconds of `calculate_elapsed_ms`, failing instead of wrapping. -/
def elapsedSecondsChecked (current older : UInt32) : Option UInt64 :=
  if current < older then do
    let left ← MachineNat.checkedSub 0xFFFFFFFF older
    let wrapped ← MachineNat.checkedAdd left.toUInt64 1
    MachineNat.checkedAdd wrapped current.toUInt64
  else do
    let seconds ← MachineNat.checkedSub current older
    pure seconds.toUInt64

/-- `calculate_elapsed_ms`, failing instead of wrapping. -/
def calculateElapsedMsChecked (current older : Timestamp) : Option UInt64 := do
  let seconds ← elapsedSecondsChecked current.seconds older.seconds
  let millis ← MachineNat.checkedMul seconds 1000
  if older.fractions < current.fractions then
    let fractions ← MachineNat.checkedSub current.fractions.toUInt64 older.fractions.toUInt64
    MachineNat.checkedAdd millis (fractions / fractionsPerMs)
  else
    let fractions ← MachineNat.checkedSub older.fractions.toUInt64 current.fractions.toUInt64
    MachineNat.checkedSub millis (fractions / fractionsPerMs)

/-- The seconds never wrap. -/
theorem elapsedSecondsChecked_eq (current older : UInt32) :
    ∃ seconds, elapsedSecondsChecked current older = some seconds ∧
      (seconds.toNat : ℤ) = ((current.toNat : ℤ) - older.toNat) % ticksPerSecond := by
  have hc := current.toNat_lt
  have ho := older.toNat_lt
  refine ⟨_, ?_, elapsed_seconds_toNat current older⟩
  unfold elapsedSecondsChecked
  by_cases hlt : current < older
  · have hmax : older ≤ 0xFFFFFFFF := by
      rw [UInt32.le_iff_toNat_le, show (0xFFFFFFFF : UInt32).toNat = 4294967295 from rfl]
      omega
    have hleft := (0xFFFFFFFF - older).toNat_lt
    have hone : (0xFFFFFFFF - older).toUInt64.toNat + (1 : UInt64).toNat < 2 ^ 64 := by
      rw [UInt32.toNat_toUInt64, show (1 : UInt64).toNat = 1 from rfl]
      omega
    have hwrapped :
        ((0xFFFFFFFF - older).toUInt64 + 1).toNat + current.toUInt64.toNat < 2 ^ 64 := by
      rw [UInt64.toNat_add, Nat.mod_eq_of_lt hone, UInt32.toNat_toUInt64, UInt32.toNat_toUInt64,
        show (1 : UInt64).toNat = 1 from rfl]
      omega
    rw [if_pos hlt, if_pos hlt, MachineNat.checkedSub_uint32 hmax, Option.bind_eq_bind,
      Option.bind_some, MachineNat.checkedAdd_uint64 hone, Option.bind_eq_bind, Option.bind_some,
      MachineNat.checkedAdd_uint64 hwrapped]
  · rw [if_neg hlt, if_neg hlt, MachineNat.checkedSub_uint32 (UInt32.not_lt.mp hlt),
      Option.bind_eq_bind, Option.bind_some, Option.pure_def]

/-- **The checked twin is the exact value**, where that is a value of the type. -/
theorem calculateElapsedMsChecked_eq (current older : Timestamp) :
    calculateElapsedMsChecked current older = MachineNat.checked (elapsedExact current older) := by
  obtain ⟨seconds, hseconds, hvalue⟩ := elapsedSecondsChecked_eq current.seconds older.seconds
  have hlt := Int.emod_lt_of_pos ((current.seconds.toNat : ℤ) - older.seconds.toNat)
    (Int.natCast_pos.mpr ticksPerSecond_pos)
  rw [← hvalue, ticksPerSecond_eq] at hlt
  have hfits : seconds.toNat * (1000 : UInt64).toNat < 2 ^ 64 := by
    rw [show (1000 : UInt64).toNat = 1000 from rfl]
    omega
  have hmillis : ((seconds * 1000).toNat : ℤ) = 1000 * seconds.toNat := by
    rw [UInt64.toNat_mul, Nat.mod_eq_of_lt hfits, show (1000 : UInt64).toNat = 1000 from rfl]
    omega
  unfold calculateElapsedMsChecked elapsedExact
  rw [hseconds, Option.bind_eq_bind, Option.bind_some, MachineNat.checkedMul_uint64 hfits,
    Option.bind_some, ← hvalue, ← hmillis]
  by_cases hlt : older.fractions < current.fractions
  · have hle := UInt32.le_of_lt hlt
    rw [if_pos hlt, MachineNat.checkedSub_uint64 (UInt32.toUInt64_le.mpr hle), Option.bind_some,
      ← fractions_div_toNat hle]
    rfl
  · have hle := UInt32.not_lt.mp hlt
    rw [if_neg hlt, MachineNat.checkedSub_uint64 (UInt32.toUInt64_le.mpr hle), Option.bind_some,
      ← neg_sub (older.fractions.toNat : ℤ), Int.neg_tdiv, ← fractions_div_toNat hle]
    rfl

/-! ## Distances -/

/-- Ticks forward from `older` to `current`, modulo the 64 bits of a reading. -/
def forwardTicks (current older : Timestamp) : ℤ := ((current.ticks : ℤ) - older.ticks) % 2 ^ 64

/-- A reading earlier in the same second. -/
def SteppedBack (current older : Timestamp) : Prop :=
  current.seconds = older.seconds ∧ current.fractions < older.fractions

instance (current older : Timestamp) : Decidable (SteppedBack current older) :=
  inferInstanceAs (Decidable (_ ∧ _))

theorem steppedBack_iff {current older : Timestamp} :
    SteppedBack current older ↔ current.seconds.toNat = older.seconds.toNat ∧
      current.fractions.toNat < older.fractions.toNat := by
  rw [SteppedBack, UInt32.toNat_inj, UInt32.lt_iff_toNat_lt]

/-- A step back is a step of almost `2^64` ticks forward. -/
theorem forwardTicks_of_steppedBack {current older : Timestamp} (h : SteppedBack current older) :
    (2 ^ 32 - 1) * 2 ^ 32 < forwardTicks current older := by
  obtain ⟨hs, hf⟩ := steppedBack_iff.mp h
  have hof := older.fractions.toNat_lt
  unfold forwardTicks Timestamp.ticks
  push_cast
  omega

theorem not_steppedBack_of_lt {current older : Timestamp}
    (h : forwardTicks current older < (2 ^ 32 - 1) * 2 ^ 32) : ¬ SteppedBack current older :=
  fun hback => absurd (forwardTicks_of_steppedBack hback) (not_lt.mpr h.le)

/-- Between any other two readings only the seconds wrap. -/
theorem forwardTicks_eq {current older : Timestamp} (h : ¬ SteppedBack current older) :
    0 ≤ ticksPerSecond * (((current.seconds.toNat : ℤ) - older.seconds.toNat) % ticksPerSecond)
        + ((current.fractions.toNat : ℤ) - older.fractions.toNat) ∧
      forwardTicks current older
        = ticksPerSecond * (((current.seconds.toNat : ℤ) - older.seconds.toNat) % ticksPerSecond)
          + ((current.fractions.toNat : ℤ) - older.fractions.toNat) := by
  have hT := ticksPerSecond_eq
  have hcs := current.seconds.toNat_lt
  have hcf := current.fractions.toNat_lt
  have hos := older.seconds.toNat_lt
  have hof := older.fractions.toNat_lt
  rw [steppedBack_iff] at h
  have hnonneg : 0 ≤ ticksPerSecond
      * (((current.seconds.toNat : ℤ) - older.seconds.toNat) % ticksPerSecond)
        + ((current.fractions.toNat : ℤ) - older.fractions.toNat) := by
    rw [hT]
    omega
  refine ⟨hnonneg, ?_⟩
  rw [← Ticks.span_emod ticksPerSecond_pos (by omega) hnonneg, forwardTicks, Timestamp.ticks,
    Timestamp.ticks, hT]
  push_cast
  congr 1
  ring

/-! ## Where the subtraction goes below zero -/

/-- A step back of a whole millisecond is what takes the exact value below zero. -/
theorem elapsedExact_neg_iff (current older : Timestamp) :
    elapsedExact current older < 0 ↔ current.seconds = older.seconds ∧
      4295000 ≤ (older.fractions.toNat : ℤ) - current.fractions.toNat := by
  have hT := ticksPerSecond_eq
  have hD := ticksPerMs_eq
  have hcs := current.seconds.toNat_lt
  have hcf := current.fractions.toNat_lt
  have hos := older.seconds.toNat_lt
  have hof := older.fractions.toNat_lt
  obtain ⟨hlo, hhi⟩ := fraction_tdiv_bounds
    (x := (current.fractions.toNat : ℤ) - older.fractions.toNat) (by omega) (by omega)
  have hneg := Ticks.tdiv_neg_iff ticksPerMs_pos
    ((current.fractions.toNat : ℤ) - older.fractions.toNat)
  rw [← UInt32.toNat_inj, elapsedExact, hT]
  omega

theorem elapsedExact_nonneg {current older : Timestamp} (h : ¬ SteppedBack current older) :
    0 ≤ elapsedExact current older := by
  by_contra hneg
  obtain ⟨hseconds, hfractions⟩ := (elapsedExact_neg_iff current older).mp (not_le.mp hneg)
  exact h ⟨hseconds, UInt32.lt_iff_toNat_lt.mpr (by omega)⟩

/-- Where it is not below zero, the checked twin and the code agree on it. -/
theorem calculateElapsedMsChecked_of_nonneg {current older : Timestamp}
    (h : 0 ≤ elapsedExact current older) :
    calculateElapsedMsChecked current older = some (calculateElapsedMs current older) := by
  rw [calculateElapsedMsChecked_eq, ← calculateElapsedMs_of_nonneg h]
  exact MachineNat.checked_of_eq rfl

/-- So the code wraps exactly there, in its last subtraction and nowhere before. -/
theorem calculateElapsedMsChecked_eq_none_iff (current older : Timestamp) :
    calculateElapsedMsChecked current older = none ↔ elapsedExact current older < 0 := by
  constructor
  · intro hnone
    by_contra hge
    rw [calculateElapsedMsChecked_of_nonneg (not_lt.mp hge)] at hnone
    cases hnone
  · intro hneg
    rw [calculateElapsedMsChecked_eq, MachineNat.checked_of_neg hneg]

theorem calculateElapsedMs_of_checked {current older : Timestamp} {ms : UInt64}
    (h : calculateElapsedMsChecked current older = some ms) :
    calculateElapsedMs current older = ms := by
  rcases lt_or_ge (elapsedExact current older) 0 with hneg | hnonneg
  · rw [(calculateElapsedMsChecked_eq_none_iff current older).mpr hneg] at h
    cases h
  · exact Option.some.inj ((calculateElapsedMsChecked_of_nonneg hnonneg).symm.trans h)

/-! ## Accuracy and order -/

/-- Elapsed time is accurate over any distance forward. -/
theorem elapsed_error_forward {current older : Timestamp} (h : ¬ SteppedBack current older) :
    |((calculateElapsedMs current older).toNat : ℚ) - ticksMs (forwardTicks current older)|
      < roundingMs := by
  rw [(forwardTicks_eq h).2]
  exact elapsed_error_of_nonneg (elapsedExact_nonneg h)

/-- Elapsed time never decreases as the distance from one reading grows. -/
theorem elapsed_mono {older c₁ c₂ : Timestamp} (h₁ : ¬ SteppedBack c₁ older)
    (h₂ : ¬ SteppedBack c₂ older) (hle : forwardTicks c₁ older ≤ forwardTicks c₂ older) :
    (calculateElapsedMs c₁ older).toNat ≤ (calculateElapsedMs c₂ older).toNat := by
  have hT := ticksPerSecond_eq
  have hcf₁ := c₁.fractions.toNat_lt
  have hcf₂ := c₂.fractions.toNat_lt
  rw [(forwardTicks_eq h₁).2, (forwardTicks_eq h₂).2] at hle
  -- both fractions are measured from one, so the seconds are in order too
  have hseconds : ((c₁.seconds.toNat : ℤ) - older.seconds.toNat) % ticksPerSecond
      ≤ ((c₂.seconds.toNat : ℤ) - older.seconds.toNat) % ticksPerSecond := by
    rw [hT] at hle ⊢
    omega
  have hrounded : elapsedExact c₁ older ≤ elapsedExact c₂ older :=
    Ticks.rounded_mono ticksPerMs_pos ticksPerSecond_le hseconds hle
  have hvalue₁ := calculateElapsedMs_of_nonneg (elapsedExact_nonneg h₁)
  have hvalue₂ := calculateElapsedMs_of_nonneg (elapsedExact_nonneg h₂)
  omega

/-- **Elapsed time is a distance forward**: accurate, monotone, and wrong for one
kind of pair only. -/
theorem elapsed_forward :
    -- the code wraps exactly for a step back of a whole millisecond, and then below zero
    (∀ current older : Timestamp,
      (calculateElapsedMsChecked current older = none ↔ current.seconds = older.seconds ∧
        4295000 ≤ (older.fractions.toNat : ℤ) - current.fractions.toNat) ∧
      (∀ ms, calculateElapsedMsChecked current older = some ms →
        calculateElapsedMs current older = ms) ∧
      (elapsedExact current older < 0 ↔ current.seconds = older.seconds ∧
        4295000 ≤ (older.fractions.toNat : ℤ) - current.fractions.toNat) ∧
      ((calculateElapsedMs current older).toNat : ℤ) = elapsedExact current older % 2 ^ 64) ∧
    -- a step back apart, it is accurate
    (∀ current older : Timestamp,
      ¬ (current.seconds = older.seconds ∧ current.fractions < older.fractions) →
      |((calculateElapsedMs current older).toNat : ℚ) - ticksMs (forwardTicks current older)|
          < 1.01 ∧
        (calculateElapsedMs current older).toNat < 2 ^ 32 * 1000) ∧
    -- and monotone in the distance from one reading
    ∀ older c₁ c₂ : Timestamp, forwardTicks c₁ older < (2 ^ 32 - 1) * 2 ^ 32 →
      forwardTicks c₂ older < (2 ^ 32 - 1) * 2 ^ 32 →
      forwardTicks c₁ older ≤ forwardTicks c₂ older →
      (calculateElapsedMs c₁ older).toNat ≤ (calculateElapsedMs c₂ older).toNat := by
  refine ⟨fun current older => ?_, fun current older h => ?_, ?_⟩
  · have hneg := elapsedExact_neg_iff current older
    have hnone := calculateElapsedMsChecked_eq_none_iff current older
    exact ⟨hnone.trans hneg, fun ms => calculateElapsedMs_of_checked, hneg,
      calculateElapsedMs_toNat current older⟩
  · have hr := roundingMs_lt
    have herr := elapsed_error_forward h
    have hvalue := calculateElapsedMs_of_nonneg (elapsedExact_nonneg h)
    have hlt := elapsedExact_lt current older
    exact ⟨by linarith, by omega⟩
  · intro older c₁ c₂ h₁ h₂ hle
    exact elapsed_mono (not_steppedBack_of_lt h₁) (not_steppedBack_of_lt h₂) hle

/-! ## The client's method and the codec's -/

/-- The codec's difference, up to half an era: the same seconds, and the
fractions rounded apart. -/
theorem safeTimeDifference_forward {current older : Timestamp}
    (h : forwardTicks current older < 2 ^ 31 * 2 ^ 32) :
    (safeTimeDifference current older).toInt
      = 1000 * (((current.seconds.toNat : ℤ) - older.seconds.toNat) % ticksPerSecond)
        + ((current.fractions.toNat : ℤ) / ticksPerMs - older.fractions.toNat / ticksPerMs) := by
  have hT := ticksPerSecond_eq
  have hD := ticksPerMs_eq
  have hera := era_eq
  have hcf := current.fractions.toNat_lt
  have hof := older.fractions.toNat_lt
  have hback : ¬ SteppedBack current older := not_steppedBack_of_lt (by omega)
  obtain ⟨hnonneg, hdist⟩ := forwardTicks_eq hback
  rw [hdist] at h
  rw [hT] at h hnonneg
  -- one second short of half an era, or half an era with a fraction to go
  refine safeTimeDifference_eq_of_near
    (k := ((current.seconds.toNat : ℤ) - older.seconds.toNat) / ticksPerSecond) ?_ ?_ ?_
  · rw [Timestamp.ms, Timestamp.ms, hT, hD, hera]
    omega
  · rw [hT, hD, hera]
    omega
  · rw [hT, hD, hera]
    omega

/-- **The client's era arithmetic is the codec's**, to a millisecond. -/
theorem elapsed_agrees {current older : Timestamp}
    (h : forwardTicks current older < 2 ^ 31 * 2 ^ 32) :
    |((calculateElapsedMs current older).toNat : ℤ) - (safeTimeDifference current older).toInt|
      ≤ 1 := by
  have hback : ¬ SteppedBack current older := not_steppedBack_of_lt (by omega)
  have hround := Ticks.abs_ediv_sub_tdiv_le ticksPerMs_pos (current.fractions.toNat : ℤ)
    older.fractions.toNat
  rw [calculateElapsedMs_of_nonneg (elapsedExact_nonneg hback), safeTimeDifference_forward h,
    elapsedExact, add_sub_add_left_eq_sub, abs_sub_comm]
  exact hround

/-- Two seconds, less a fraction, across the wrap. -/
theorem elapsed_agrees_across_2036 :
    |((calculateElapsedMs ⟨1, 4000000⟩ ⟨0xFFFFFFFF, 5000000⟩).toNat : ℤ)
      - (safeTimeDifference ⟨1, 4000000⟩ ⟨0xFFFFFFFF, 5000000⟩).toInt| ≤ 1 :=
  elapsed_agrees (by decide)

end Sntp
