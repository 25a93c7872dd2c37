import Mathlib.Data.Int.ModEq
import Sntp.Wire.Era

/-!
# Era arithmetic, as an equation

`Era` finds the residue by cases; this file says what that makes of the two
functions. `safeTimeDifference` is the *only* integer in `(-E/2, E/2]` congruent
to the difference in milliseconds, so it depends on the two timestamps through
that difference modulo an era alone, and moving all four timestamps of an
exchange by the same number of seconds, across the wrap or not, moves no offset.

That nothing on the way saturates is said by the same functions with checked
operations in place of the saturating ones: they never fail.
-/

namespace Sntp

/-! ## The checked twins -/

/-- `asMillis`, failing instead of saturating. -/
def asMillisChecked (t : Timestamp) : Option Int64 := do
  let seconds ← Saturating.checkedMul (Int64.ofNat t.seconds.toNat) 1000
  Saturating.checkedAdd seconds (Int64.ofNat (fractionsToMs t.fractions).toNat)

/-- `safeTimeDifference`, failing instead of saturating. -/
def safeTimeDifferenceChecked (server client : Timestamp) : Option Int64 := do
  let serverMs ← asMillisChecked server
  let clientMs ← asMillisChecked client
  let sameEra ← Saturating.checkedSub serverMs clientMs
  let absSameEra ← Saturating.checkedAbs sameEra
  if absSameEra == clockOffsetMaxTimeDifference then pure clockOffsetMaxTimeDifference
  else
    let serverNextEra ← Saturating.checkedAdd serverMs totalMillisecondsInNtpEra
    let serverEraAhead ← Saturating.checkedSub serverNextEra clientMs
    let clientNextEra ← Saturating.checkedAdd totalMillisecondsInNtpEra clientMs
    let clientEraAhead ← Saturating.checkedSub serverMs clientNextEra
    let absServerAhead ← Saturating.checkedAbs serverEraAhead
    let absClientAhead ← Saturating.checkedAbs clientEraAhead
    if absSameEra ≤ absServerAhead ∧ absSameEra ≤ absClientAhead then pure sameEra
    else if absServerAhead < absSameEra then pure serverEraAhead
    else pure clientEraAhead

/-- `calculateClockOffset`, failing instead of saturating. -/
def calculateClockOffsetChecked (clientTx serverRx serverTx clientRx : Timestamp) :
    Option Int64 := do
  let send ← safeTimeDifferenceChecked serverRx clientTx
  let recv ← safeTimeDifferenceChecked serverTx clientRx
  let sum ← Saturating.checkedAdd send recv
  pure (sum / 2)

theorem asMillisChecked_eq (t : Timestamp) : asMillisChecked t = some (asMillis t) := by
  obtain ⟨hmul, hadd⟩ := asMillis_fits t
  unfold asMillisChecked asMillis
  rw [Saturating.bind_of_eq_some (Saturating.checked_mul hmul), Saturating.checked_add hadd]

/-- And so do the absolute values it takes. -/
theorem absolute_fits (server client : Timestamp) :
    Saturating.Fits (Saturating.sub (asMillis server) (asMillis client)).toInt.natAbs ∧
    Saturating.Fits (Saturating.sub (Saturating.add (asMillis server) totalMillisecondsInNtpEra)
      (asMillis client)).toInt.natAbs ∧
    Saturating.Fits (Saturating.sub (asMillis server)
      (Saturating.add totalMillisecondsInNtpEra (asMillis client))).toInt.natAbs := by
  have hs₀ := server.ms_nonneg
  have hs₁ := server.ms_lt
  have hc₀ := client.ms_nonneg
  have hc₁ := client.ms_lt
  have hera := era_eq
  obtain ⟨hsame, hahead, hbehind⟩ := candidates_toInt server client
  rw [hsame, hahead, hbehind]
  unfold Saturating.Fits
  omega

/-- Nothing in a difference saturates. -/
theorem safeTimeDifferenceChecked_eq (server client : Timestamp) :
    safeTimeDifferenceChecked server client = some (safeTimeDifference server client) := by
  obtain ⟨hsame, hserver, hclient, hahead, hbehind⟩ := difference_fits server client
  obtain ⟨habs₁, habs₂, habs₃⟩ := absolute_fits server client
  unfold safeTimeDifferenceChecked safeTimeDifference absoluteOf
  rw [Saturating.bind_of_eq_some (asMillisChecked_eq server),
    Saturating.bind_of_eq_some (asMillisChecked_eq client),
    Saturating.bind_of_eq_some (Saturating.checked_sub hsame),
    Saturating.bind_of_eq_some (Saturating.checked_abs habs₁)]
  dsimp only
  by_cases htie : (Saturating.abs (Saturating.sub (asMillis server) (asMillis client))
      == clockOffsetMaxTimeDifference) = true
  · rw [if_pos htie, if_pos htie, Option.pure_def]
  · rw [if_neg htie, if_neg htie, Saturating.bind_of_eq_some (Saturating.checked_add hserver),
      Saturating.bind_of_eq_some (Saturating.checked_sub hahead),
      Saturating.bind_of_eq_some (Saturating.checked_add hclient),
      Saturating.bind_of_eq_some (Saturating.checked_sub hbehind),
      Saturating.bind_of_eq_some (Saturating.checked_abs habs₂),
      Saturating.bind_of_eq_some (Saturating.checked_abs habs₃)]
    split_ifs <;> rfl

/-- Nor does anything in an offset. -/
theorem calculateClockOffsetChecked_eq (clientTx serverRx serverTx clientRx : Timestamp) :
    calculateClockOffsetChecked clientTx serverRx serverTx clientRx
      = some (calculateClockOffset clientTx serverRx serverTx clientRx) := by
  have hera := era_eq
  obtain ⟨⟨h₁, h₂⟩, _⟩ := safeTimeDifference_spec serverRx clientTx
  obtain ⟨⟨h₃, h₄⟩, _⟩ := safeTimeDifference_spec serverTx clientRx
  have hsum : Saturating.Fits ((safeTimeDifference serverRx clientTx).toInt
      + (safeTimeDifference serverTx clientRx).toInt) := by
    unfold Saturating.Fits
    omega
  unfold calculateClockOffsetChecked calculateClockOffset
  rw [Saturating.bind_of_eq_some (safeTimeDifferenceChecked_eq serverRx clientTx),
    Saturating.bind_of_eq_some (safeTimeDifferenceChecked_eq serverTx clientRx),
    Saturating.bind_of_eq_some (Saturating.checked_add hsum), Option.pure_def]

/-! ## The residue -/

/-- **The difference is the one balanced residue.** -/
theorem safeTimeDifference_unique (server client : Timestamp) (d : ℤ) :
    d = (safeTimeDifference server client).toInt ↔
      (-era < 2 * d ∧ 2 * d ≤ era) ∧ d ≡ server.ms - client.ms [ZMOD era] := by
  constructor
  · intro hd
    obtain ⟨hrange, hcandidates⟩ := safeTimeDifference_spec server client
    rw [← hd] at hrange hcandidates
    refine ⟨hrange, (Int.modEq_iff_dvd.mpr ?_)⟩
    rcases hcandidates with h | h | h
    · exact ⟨0, by rw [h]; ring⟩
    · exact ⟨-1, by rw [h]; ring⟩
    · exact ⟨1, by rw [h]; ring⟩
  · intro h
    obtain ⟨⟨hlo, hhi⟩, hmod⟩ := h
    obtain ⟨k, hk⟩ := Int.modEq_iff_dvd.mp hmod
    refine (safeTimeDifference_eq_of_near (k := k) ?_ hlo hhi).symm
    linarith

/-- The same number of seconds later, wrapping. -/
def Timestamp.shift (k : UInt32) (t : Timestamp) : Timestamp := { t with seconds := t.seconds + k }

/-- A shift is a shift, up to an era. -/
theorem Timestamp.shift_ms (k : UInt32) (t : Timestamp) :
    (t.shift k).ms ≡ t.ms + 1000 * k.toNat [ZMOD era] := by
  have hs := t.seconds.toNat_lt
  have hk := k.toNat_lt
  have hadd : (t.seconds + k).toNat = (t.seconds.toNat + k.toNat) % 2 ^ 32 := UInt32.toNat_add _ _
  refine Int.modEq_iff_dvd.mpr ⟨(t.seconds.toNat + k.toNat) / 2 ^ 32, ?_⟩
  unfold Timestamp.ms Timestamp.shift era
  dsimp only
  omega

/-- Two timestamps moved together stay as far apart. -/
theorem safeTimeDifference_shift (k : UInt32) (server client : Timestamp) :
    safeTimeDifference (server.shift k) (client.shift k) = safeTimeDifference server client := by
  apply Int64.toInt_inj.mp
  obtain ⟨hrange, hmod⟩ := (safeTimeDifference_unique server client _).mp rfl
  refine ((safeTimeDifference_unique _ _ _).mpr ⟨hrange, hmod.trans ?_⟩).symm
  have h := ((server.shift_ms k).sub (client.shift_ms k)).symm
  rwa [add_sub_add_right_eq_sub] at h

/-- **Era arithmetic is arithmetic of balanced residues**, for all timestamps. -/
theorem era_arithmetic :
    -- a difference is the residue modulo an era, and nothing on the way saturates
    (∀ a b : Timestamp,
      (∀ d : ℤ, d = (safeTimeDifference a b).toInt ↔
        (-era < 2 * d ∧ 2 * d ≤ era) ∧ d ≡ a.ms - b.ms [ZMOD era]) ∧
      safeTimeDifferenceChecked a b = some (safeTimeDifference a b)) ∧
    ∀ t₁ t₂ t₃ t₄ : Timestamp,
      -- an offset is the truncated half of two of them, within half an era
      (calculateClockOffset t₁ t₂ t₃ t₄).toInt
        = ((safeTimeDifference t₂ t₁).toInt + (safeTimeDifference t₃ t₄).toInt).tdiv 2 ∧
      calculateClockOffsetChecked t₁ t₂ t₃ t₄ = some (calculateClockOffset t₁ t₂ t₃ t₄) ∧
      (-era ≤ 2 * (calculateClockOffset t₁ t₂ t₃ t₄).toInt ∧
        2 * (calculateClockOffset t₁ t₂ t₃ t₄).toInt ≤ era) ∧
      -- and moving the whole exchange changes nothing
      ∀ k : UInt32, calculateClockOffset (t₁.shift k) (t₂.shift k) (t₃.shift k) (t₄.shift k)
        = calculateClockOffset t₁ t₂ t₃ t₄ := by
  refine ⟨fun a b => ⟨safeTimeDifference_unique a b, safeTimeDifferenceChecked_eq a b⟩, ?_⟩
  intro t₁ t₂ t₃ t₄
  have hera := era_eq
  have hoffset := calculateClockOffset_toInt t₁ t₂ t₃ t₄
  refine ⟨hoffset, calculateClockOffsetChecked_eq t₁ t₂ t₃ t₄, ?_, ?_⟩
  · obtain ⟨⟨h₁, h₂⟩, _⟩ := safeTimeDifference_spec t₂ t₁
    obtain ⟨⟨h₃, h₄⟩, _⟩ := safeTimeDifference_spec t₃ t₄
    rw [hoffset]
    obtain ⟨sum, hsum⟩ : ∃ sum, sum = (safeTimeDifference t₂ t₁).toInt
      + (safeTimeDifference t₃ t₄).toInt := ⟨_, rfl⟩
    rw [← hsum]
    have hhalf := Int.mul_tdiv_add_tmod sum 2
    have hlo := Int.lt_tmod_of_pos sum (show (0 : ℤ) < 2 by decide)
    have hhi := Int.tmod_lt_of_pos sum (show (0 : ℤ) < 2 by decide)
    omega
  · intro k
    rw [calculateClockOffset, calculateClockOffset, safeTimeDifference_shift,
      safeTimeDifference_shift]

end Sntp
