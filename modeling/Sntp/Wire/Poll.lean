import Sntp.Lib.Powers
import Sntp.Lib.MachineNat
import Sntp.Wire.Types

/-!
# The poll interval

A clock that drifts by `t` parts per million is `a` milliseconds off after
`1000 * a / t` seconds, and `calculatePollInterval` rounds that down to a power
of two: the largest power `p` of two for which the drift `p * t` stays within
`1000 * a`. The code gets there by a saturating product, a division and the
position of the highest set bit of the quotient.

> `calculatePollInterval_greatest`: it answers with the greatest of the powers
> within that budget, and refuses exactly when there is none.

The bounds on the answer and its monotonicity are facts about the greatest power
within a budget, not about the code. That nothing saturates is said by
`calculatePollIntervalChecked`, which has checked operations and never fails.
-/

namespace Sntp

/-- `calculate_poll_interval`. -/
def calculatePollInterval (clockFreqTolerance desiredAccuracy : UInt16) :
    Except PollIntervalError UInt32 :=
  if clockFreqTolerance == 0 || desiredAccuracy == 0 then .error .badParameter
  else
    let exact := (MachineNat.checkedDiv (MachineNat.saturatingMul desiredAccuracy.toUInt32 1000)
      clockFreqTolerance.toUInt32).getD 0
    if exact == 0 then .error .zeroPollInterval
    else
      let log2PollInterval :=
        MachineNat.saturatingSub (MachineNat.saturatingSub 32 (MachineNat.leadingZeros exact)) 1
      .ok (1 <<< log2PollInterval)

/-- `calculate_poll_interval`, failing instead of saturating, and on a shift by
the width of the type. -/
def calculatePollIntervalChecked (clockFreqTolerance desiredAccuracy : UInt16) :
    Option (Except PollIntervalError UInt32) :=
  if clockFreqTolerance == 0 || desiredAccuracy == 0 then pure (.error .badParameter)
  else do
    let product ← MachineNat.checkedMul desiredAccuracy.toUInt32 1000
    let exact ← MachineNat.checkedDiv product clockFreqTolerance.toUInt32
    if exact == 0 then pure (.error .zeroPollInterval)
    else
      let bits ← MachineNat.checkedSub 32 (MachineNat.leadingZeros exact)
      let log2PollInterval ← MachineNat.checkedSub bits 1
      let interval ← MachineNat.checkedShl 1 log2PollInterval
      pure (.ok interval)

/-! ## The steps of the calculation -/

theorem toNat_pos_of_ne_zero {t : UInt16} (ht : t ≠ 0) : 0 < t.toNat :=
  Nat.pos_of_ne_zero fun h => ht (UInt16.toNat_inj.mp h)

/-- The product fits. -/
theorem poll_product (a : UInt16) :
    ∃ product : UInt32, MachineNat.saturatingMul a.toUInt32 1000 = product ∧
      MachineNat.checkedMul a.toUInt32 1000 = some product ∧ product.toNat = 1000 * a.toNat := by
  have ha := a.toNat_lt
  have hfits : a.toUInt32.toNat * (1000 : UInt32).toNat < 2 ^ 32 := by
    rw [UInt16.toNat_toUInt32, show (1000 : UInt32).toNat = 1000 from rfl]
    omega
  obtain ⟨product, hmul, hchecked, hvalue⟩ := MachineNat.exists_mul a.toUInt32 1000 hfits
  exact ⟨product, hmul, hchecked, hvalue.trans (Nat.mul_comm _ _)⟩

/-- The quotient is the exact interval, rounded down. -/
theorem poll_quotient {t a : UInt16} {product : UInt32} (ht : t ≠ 0)
    (hproduct : product.toNat = 1000 * a.toNat) :
    ∃ exact : UInt32, MachineNat.checkedDiv product t.toUInt32 = some exact ∧
      exact.toNat = 1000 * a.toNat / t.toNat := by
  have hpos := toNat_pos_of_ne_zero ht
  obtain ⟨exact, hdiv, hvalue⟩ := MachineNat.exists_div product t.toUInt32 hpos
  rw [← hproduct]
  exact ⟨exact, hdiv, hvalue⟩

/-- The highest set bit of a nonzero quotient, by two subtractions that do not
go below zero. -/
theorem poll_log {exact : UInt32} (h : exact ≠ 0) :
    ∃ bits log2PollInterval : UInt32,
      MachineNat.saturatingSub 32 (MachineNat.leadingZeros exact) = bits ∧
      MachineNat.checkedSub 32 (MachineNat.leadingZeros exact) = some bits ∧
      MachineNat.saturatingSub bits 1 = log2PollInterval ∧
      MachineNat.checkedSub bits 1 = some log2PollInterval ∧
      log2PollInterval.toNat = Nat.log 2 exact.toNat ∧ log2PollInterval < 32 := by
  have hlog := MachineNat.log_add_leadingZeros h
  have hzeros : (MachineNat.leadingZeros exact).toNat ≤ (32 : UInt32).toNat := by
    rw [show (32 : UInt32).toNat = 32 from rfl]
    omega
  obtain ⟨bits, hbits, hbits', hvalue⟩ := MachineNat.exists_sub (32 : UInt32) _ hzeros
  have hcount : bits.toNat = 32 - (MachineNat.leadingZeros exact).toNat := hvalue
  have hone : (1 : UInt32).toNat ≤ bits.toNat := by
    rw [show (1 : UInt32).toNat = 1 from rfl]
    omega
  obtain ⟨log2, hlog2, hlog2', hvalue'⟩ := MachineNat.exists_sub bits (1 : UInt32) hone
  have hindex : log2.toNat = bits.toNat - 1 := hvalue'
  refine ⟨bits, log2, hbits, hbits', hlog2, hlog2', by omega, ?_⟩
  rw [UInt32.lt_iff_toNat_lt, show (32 : UInt32).toNat = 32 from rfl]
  omega

/-! ## The answer -/

/-- An interval under a second is refused. -/
theorem calculatePollInterval_zero {t a : UInt16} (ht : t ≠ 0) (ha : a ≠ 0)
    (h : 1000 * a.toNat < t.toNat) :
    calculatePollInterval t a = .error .zeroPollInterval ∧
      calculatePollIntervalChecked t a = some (.error .zeroPollInterval) := by
  have hargs : ¬ (t == 0 || a == 0) = true := by simp [ht, ha]
  obtain ⟨product, hmul, hmul', hproduct⟩ := poll_product a
  obtain ⟨exact, hdiv, hexact⟩ := poll_quotient ht hproduct
  have hzero : exact = 0 := by
    rw [Nat.div_eq_of_lt h] at hexact
    exact UInt32.toNat_inj.mp hexact
  constructor
  · unfold calculatePollInterval
    rw [if_neg hargs, hmul, hdiv]
    simp [hzero]
  · unfold calculatePollIntervalChecked
    rw [if_neg hargs, hmul']
    simp [hdiv, hzero]

/-- Any other is a power of two. -/
theorem calculatePollInterval_ok {t a : UInt16} (ht : t ≠ 0) (ha : a ≠ 0)
    (h : t.toNat ≤ 1000 * a.toNat) :
    ∃ p, calculatePollInterval t a = .ok p ∧ calculatePollIntervalChecked t a = some (.ok p) ∧
      p.toNat = 2 ^ Nat.log 2 (1000 * a.toNat / t.toNat) := by
  have hpos := toNat_pos_of_ne_zero ht
  have hargs : ¬ (t == 0 || a == 0) = true := by simp [ht, ha]
  obtain ⟨product, hmul, hmul', hproduct⟩ := poll_product a
  obtain ⟨exact, hdiv, hexact⟩ := poll_quotient ht hproduct
  have hzero : exact ≠ 0 := by
    rintro rfl
    exact (Nat.div_pos h hpos).ne hexact
  obtain ⟨bits, log2, hbits, hbits', hlog2, hlog2', hvalue, hlt⟩ := poll_log hzero
  refine ⟨1 <<< log2, ?_, ?_, ?_⟩
  · unfold calculatePollInterval
    rw [if_neg hargs, hmul, hdiv]
    simp [hzero, hbits, hlog2]
  · unfold calculatePollIntervalChecked
    rw [if_neg hargs, hmul']
    simp [hdiv, hzero, hbits', hlog2', MachineNat.checkedShl, hlt]
  · rw [MachineNat.toNat_one_shiftLeft hlt, hvalue, hexact]

/-- An answer or a refusal, never a failure: nothing saturates, and no shift is
as wide as the type. -/
theorem calculatePollIntervalChecked_eq {t a : UInt16} (ht : t ≠ 0) (ha : a ≠ 0) :
    calculatePollIntervalChecked t a = some (calculatePollInterval t a) := by
  rcases lt_or_ge (1000 * a.toNat) t.toNat with hlt | hge
  · obtain ⟨hcalc, hchecked⟩ := calculatePollInterval_zero ht ha hlt
    rw [hcalc, hchecked]
  · obtain ⟨p, hcalc, hchecked, _⟩ := calculatePollInterval_ok ht ha hge
    rw [hcalc, hchecked]

/-- Only nonzero arguments have an answer. -/
theorem ne_zero_of_calculatePollInterval {t a : UInt16} {p : UInt32}
    (h : calculatePollInterval t a = .ok p) : t ≠ 0 ∧ a ≠ 0 := by
  constructor <;> rintro rfl <;> simp [calculatePollInterval] at h

/-- **The answer is the greatest power of two within the budget.** -/
theorem calculatePollInterval_greatest {t a : UInt16} {p : UInt32}
    (h : calculatePollInterval t a = .ok p) :
    IsGreatest (Powers.within 2 t.toNat (1000 * a.toNat)) p.toNat := by
  obtain ⟨ht, ha⟩ := ne_zero_of_calculatePollInterval h
  have hpos := toNat_pos_of_ne_zero ht
  rcases lt_or_ge (1000 * a.toNat) t.toNat with hlt | hge
  · rw [(calculatePollInterval_zero ht ha hlt).1] at h
    cases h
  · obtain ⟨q, hcalc, _, hvalue⟩ := calculatePollInterval_ok ht ha hge
    obtain rfl : q = p := Except.ok.inj (hcalc.symm.trans h)
    rw [hvalue]
    exact Powers.isGreatest_pow_log_div (by decide) hpos hge

/-- And it is refused exactly when there is none. -/
theorem calculatePollInterval_eq_zero_iff {t a : UInt16} (ht : t ≠ 0) (ha : a ≠ 0) :
    calculatePollInterval t a = .error .zeroPollInterval ↔
      ¬ (Powers.within 2 t.toNat (1000 * a.toNat)).Nonempty := by
  rw [Powers.within_nonempty (by decide), not_le]
  constructor
  · intro h
    by_contra hge
    obtain ⟨p, hcalc, _⟩ := calculatePollInterval_ok ht ha (not_lt.mp hge)
    rw [hcalc] at h
    cases h
  · intro hlt
    exact (calculatePollInterval_zero ht ha hlt).1

/-- A laxer accuracy or a steadier clock never asks for more frequent polls. -/
theorem calculatePollInterval_mono {t t' a a' : UInt16} {p p' : UInt32}
    (h : calculatePollInterval t a = .ok p) (h' : calculatePollInterval t' a' = .ok p')
    (ht : t' ≤ t) (ha : a ≤ a') : p ≤ p' := by
  have ha' : a.toNat ≤ a'.toNat := UInt16.le_iff_toNat_le.mp ha
  exact UInt32.le_iff_toNat_le.mpr (Powers.le_of_isGreatest (calculatePollInterval_greatest h)
    (calculatePollInterval_greatest h') (UInt16.le_iff_toNat_le.mp ht) (by omega))

/-- **The poll interval keeps the drift within the accuracy asked for**, and is
the largest power of two that does. -/
theorem poll_interval_largest {t a : UInt16} (ht : t ≠ 0) (ha : a ≠ 0) :
    -- refused under a second, and otherwise a power of two that fits and whose double does not
    (calculatePollInterval t a = .error .zeroPollInterval ↔ 1000 * a.toNat < t.toNat) ∧
    (¬ 1000 * a.toNat < t.toNat →
      ∃ p, calculatePollInterval t a = .ok p ∧ (∃ k, p.toNat = 2 ^ k) ∧
        p.toNat * t.toNat ≤ 1000 * a.toNat ∧ 1000 * a.toNat < 2 * (p.toNat * t.toNat) ∧
        ∀ q, (∃ k, q = 2 ^ k) → q * t.toNat ≤ 1000 * a.toNat → q ≤ p.toNat) ∧
    -- nothing on the way saturates, or shifts by the width of the type
    calculatePollIntervalChecked t a = some (calculatePollInterval t a) ∧
    -- and the answer grows with the accuracy and shrinks with the tolerance
    ∀ {t' a' : UInt16} {p p' : UInt32}, calculatePollInterval t a = .ok p →
      calculatePollInterval t' a' = .ok p' → t' ≤ t → a ≤ a' → p ≤ p' := by
  refine ⟨?_, ?_, calculatePollIntervalChecked_eq ht ha, calculatePollInterval_mono⟩
  · rw [calculatePollInterval_eq_zero_iff ht ha, Powers.within_nonempty (by decide), not_le]
  · intro hge
    obtain ⟨p, hcalc, _⟩ := calculatePollInterval_ok ht ha (not_lt.mp hge)
    have hgreatest := calculatePollInterval_greatest hcalc
    obtain ⟨⟨hpow, hle⟩, hmax⟩ := hgreatest
    have hdouble := Powers.lt_mul_of_isGreatest (by decide) ⟨⟨hpow, hle⟩, hmax⟩
    exact ⟨p, hcalc, hpow, hle, hdouble, fun q hq hqle => hmax ⟨hq, hqle⟩⟩

/-- A clock good to 500 parts per million, wanted to within 300 milliseconds: up
to ten minutes, so 512 seconds. -/
theorem poll_interval_largest_at_500_300 :
    (calculatePollInterval 500 300 = .error .zeroPollInterval ↔ 1000 * 300 < 500) ∧
    (¬ 1000 * 300 < 500 →
      ∃ p, calculatePollInterval 500 300 = .ok p ∧ (∃ k, p.toNat = 2 ^ k) ∧
        p.toNat * 500 ≤ 1000 * 300 ∧ 1000 * 300 < 2 * (p.toNat * 500) ∧
        ∀ q, (∃ k, q = 2 ^ k) → q * 500 ≤ 1000 * 300 → q ≤ p.toNat) ∧
    calculatePollIntervalChecked 500 300 = some (calculatePollInterval 500 300) ∧
    ∀ {t' a' : UInt16} {p p' : UInt32}, calculatePollInterval 500 300 = .ok p →
      calculatePollInterval t' a' = .ok p' → t' ≤ 500 → 300 ≤ a' → p ≤ p' :=
  poll_interval_largest (by decide) (by decide)

example : calculatePollInterval 500 300 = .ok 512 := by rfl

end Sntp
